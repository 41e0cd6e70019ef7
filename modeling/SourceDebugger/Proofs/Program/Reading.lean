import SourceDebugger.Proofs.Program.Holdings
import SourceDebugger.Proofs.Text.Utf8
import SourceDebugger.Value.Reader
/-!
Reading data back. As long as the regions of memory lie apart, any part of what can be read can be read
alone, and a debugger finds in a slot the datum that lies there.
-/
namespace SourceDebugger.Machine

open Traps

/-- The code ends below the heap and the heap below the stack. -/
structure Parted (x : Machine) : Prop where
  code : codeBase.toNat + x.code.size ≤ heapBase.toNat
  heap : heapBase.toNat + x.heap.size ≤ Region.stack.base

section Parts

variable {x : Machine} {a : UInt64} {n i k : Nat} {bytes : Bytes}

theorem toNat_plus (room : a.toNat + i < 2 ^ 64) : (a + UInt64.ofNat i).toNat = a.toNat + i := by
  have small : i < 2 ^ 64 := by omega
  rw [UInt64.toNat_add, UInt64.toNat_ofNat_of_lt' small, Nat.mod_eq_of_lt room]

theorem locate_heap (parted : Parted x) (some : 0 < n) (low : heapBase.toNat ≤ a.toNat)
    (high : a.toNat + n ≤ heapBase.toNat + x.heap.size) :
    x.locate a n = .ok (.heap, a.toNat - heapBase.toNat) := by
  have codes := parted.code
  have heaps := parted.heap
  have stack : Region.stack.base = 0x7ffe0000 := rfl
  have above : ¬ Holds x a n .code := fun holds => by
    have last : a.toNat + n ≤ codeBase.toNat + x.code.size := holds.2
    omega
  have below : ¬ Holds x a n .stack := fun holds => by
    have first := holds.1
    omega
  have here : Holds x a n .heap := ⟨low, high⟩
  rw [locate_run, if_neg (by omega), if_neg above, if_neg below, if_pos here]
  rfl

/-- A part of a stretch lies in the region that the whole lies in. -/
theorem locate_part (parted : Parted x) {r : Region} {offset : Nat}
    (located : x.locate a n = .ok (r, offset)) (some : 0 < k) (inside : i + k ≤ n) :
    x.locate (a + UInt64.ofNat i) k = .ok (r, offset + i) := by
  obtain ⟨start, fits, room⟩ := locate_ok located
  have place := toNat_plus (a := a) (i := i) (by omega)
  have codes := parted.code
  cases r with
  | code =>
    have fits : offset + n ≤ x.code.size := fits
    have start : codeBase.toNat + offset = a.toNat := start
    rw [locate_code (by omega) (by omega) (by omega), UInt64.toNat_sub_of_le _ _
      (UInt64.le_iff_toNat_le.mpr (by omega)), place, ← start, Nat.add_assoc, Nat.add_sub_cancel_left]
  | stack =>
    have stack : Region.stack.base = 0x7ffe0000 := rfl
    have low : heapBase.toNat = 0x10000000 := rfl
    have above : ¬ Holds x (a + UInt64.ofNat i) k .code := fun holds => by
      have last : _ ≤ codeBase.toNat + x.code.size := holds.2
      omega
    have here : Holds x (a + UInt64.ofNat i) k .stack := ⟨by omega, by omega⟩
    rw [locate_run, if_neg (by omega), if_neg above, if_pos here, place, ← start, Nat.add_assoc,
      Nat.add_sub_cancel_left]
  | heap =>
    have fits : offset + n ≤ x.heap.size := fits
    have start : heapBase.toNat + offset = a.toNat := start
    rw [locate_heap parted some (by omega) (by omega), place, ← start, Nat.add_assoc,
      Nat.add_sub_cancel_left]

/-- What can be read can be read in parts. -/
theorem load_part (parted : Parted x) (loaded : x.load a n = .ok bytes) (inside : i + k ≤ n) :
    x.load (a + UInt64.ofNat i) k = .ok ((bytes.drop i).take k) := by
  rcases Nat.eq_zero_or_pos k with rfl | some
  · rfl
  obtain ⟨⟨r, offset⟩, located⟩ := located_of_load (by omega) loaded
  rw [load_located (by omega) located] at loaded
  cases loaded
  rw [load_located some (locate_part parted located some inside)]
  refine congrArg Except.ok ?_
  dsimp only
  rw [Array.toList_extract, Array.toList_extract, List.extract_eq_take_drop, List.extract_eq_take_drop,
    List.drop_take, List.take_take, List.drop_drop]
  congr 1
  omega

/-- What lies on the heap can be read. -/
theorem load_backed (parted : Parted x) {start : Nat} (backed : Backed x.heap start bytes) :
    x.load (heapBase + UInt64.ofNat start) bytes.length = .ok bytes := by
  rcases Nat.eq_zero_or_pos bytes.length with none | some
  · rw [List.length_eq_zero_iff.mp none]
    rfl
  have room := backed.room
  have heaps := parted.heap
  have stack : Region.stack.base = 0x7ffe0000 := rfl
  have place := toNat_plus (a := heapBase) (i := start) (by omega)
  have located := locate_heap parted (a := heapBase + UInt64.ofNat start) some (by omega) (by omega)
  rw [place, Nat.add_sub_cancel_left] at located
  rw [load_located some located]
  refine congrArg Except.ok (List.ext_getElem? fun j => ?_)
  show (x.heap.extract start (start + bytes.length)).toList[j]? = _
  rw [Array.getElem?_toList, Array.getElem?_extract]
  by_cases inside : j < bytes.length
  · rw [if_pos (by omega), backed.same j _ (List.getElem?_eq_getElem inside),
      List.getElem?_eq_getElem inside]
  · rw [if_neg (by omega), List.getElem?_eq_none (by omega)]

end Parts

section Padding

theorem length_padded (bytes : Bytes) : bytes.length ≤ (padded bytes).length := by
  rw [padded, List.length_append]
  omega

theorem part_padded {bytes : Bytes} {i k : Nat} (inside : i + k ≤ bytes.length) :
    ((padded bytes).drop i).take k = (bytes.drop i).take k := by
  rw [padded, List.drop_append_of_le_length (by omega),
    List.take_append_of_le_length (by rw [List.length_drop]; omega)]

theorem take_padded {bytes : Bytes} {k : Nat} (inside : k ≤ bytes.length) :
    (padded bytes).take k = bytes.take k := List.take_append_of_le_length inside

theorem length_flatMap (ns : List Int32) :
    (ns.flatMap fun n => Bytes.ofNat 4 n.toUInt32.toNat).length = 4 * ns.length := by
  induction ns with
  | nil => rfl
  | cons n ns ih =>
    rw [List.flatMap_cons, List.length_append, ih, Bytes.length_ofNat, List.length_cons]
    omega

/-- The bytes of one integer among those of many. -/
theorem part_flatMap {ns : List Int32} {i : Nat} {n : Int32} (there : ns[i]? = some n) :
    ((ns.flatMap fun n => Bytes.ofNat 4 n.toUInt32.toNat).drop (i * 4)).take 4 =
      Bytes.ofNat 4 n.toUInt32.toNat := by
  induction ns generalizing i with
  | nil => cases there
  | cons first rest ih =>
    have four : (Bytes.ofNat 4 first.toUInt32.toNat).length = 4 := Bytes.length_ofNat 4 _
    rw [List.flatMap_cons]
    cases i with
    | zero =>
      cases there
      rw [Nat.zero_mul, List.drop_zero, List.take_left' four]
    | succ i =>
      have later : (i + 1) * 4 = 4 + i * 4 := by omega
      rw [later, ← List.drop_drop, List.drop_left' four]
      exact ih there

end Padding

section Values

open Value

variable {x m : Machine} {ts : Traps} {a : UInt64} {config : Config} {generation : Nat}

theorem readExactly_covering (covering : ts.Covering heapBase.toNat x m) {n : Nat} {bytes : Bytes}
    (loaded : x.load a n = .ok bytes) (above : heapBase.toNat ≤ a.toNat)
    (top : a.toNat + n ≤ stackTop.toNat) : readExactly m a n = .ok bytes := by
  rw [readExactly, read_covering covering loaded above top]
  exact if_pos (length_load loaded)

theorem readNat_covering (covering : ts.Covering heapBase.toNat x m) {n : Nat} {bytes : Bytes}
    (loaded : x.load a n = .ok bytes) (above : heapBase.toNat ≤ a.toNat)
    (top : a.toNat + n ≤ stackTop.toNat) : readNat m a n = .ok (Bytes.toNat bytes) := by
  rw [readNat, readExactly_covering covering loaded above top]
  rfl

theorem readFat_covering (covering : ts.Covering heapBase.toNat x m) (parted : Parted x)
    {pointer : UInt64} {length : Nat} (small : length < 2 ^ 64)
    (loaded : x.load a 16 = .ok (fatPointer pointer length)) (above : heapBase.toNat ≤ a.toNat)
    (top : a.toNat + 16 ≤ stackTop.toNat) : readFat m a = .ok (pointer, length) := by
  have limit : stackTop.toNat = 0x7fff0000 := rfl
  have word : (Bytes.ofWord pointer).length = 8 := Bytes.length_ofNat 8 _
  have next : (a + 8).toNat = a.toNat + 8 := toNat_plus (i := 8) (by omega)
  have first : x.load a 8 = .ok (Bytes.ofWord pointer) := by
    have part := load_part parted loaded (i := 0) (k := 8) (by omega)
    have zero : a + UInt64.ofNat 0 = a := UInt64.add_zero a
    rw [zero, fatPointer, List.drop_zero, List.take_left' word] at part
    exact part
  have second : x.load (a + 8) 8 = .ok (Bytes.ofNat 8 length) := by
    have part := load_part parted loaded (i := 8) (k := 8) (by omega)
    rw [fatPointer, List.drop_left' word, List.take_of_length_le (Nat.le_of_eq (Bytes.length_ofNat 8 _))]
      at part
    exact part
  have bound : 256 ^ 8 = 2 ^ 64 := by decide
  rw [readFat, readNat_covering covering first above (by omega)]
  simp only [bind, Except.bind]
  rw [if_neg (by omega), readNat_covering covering second (by omega) (by omega), toNat_ofWord,
    Bytes.toNat_ofNat, bound, Nat.mod_eq_of_lt small]

/-- A part of what lies on the heap is read. -/
theorem read_backed (covering : ts.Covering heapBase.toNat x m) (parted : Parted x) {start i k : Nat}
    {bytes : Bytes} (backed : Backed x.heap start bytes) (inside : i + k ≤ bytes.length) :
    readExactly m (heapBase + UInt64.ofNat start + UInt64.ofNat i) k =
      .ok ((bytes.drop i).take k) := by
  have room := backed.room
  have heaps := parted.heap
  have stack : Region.stack.base = 0x7ffe0000 := rfl
  have limit : stackTop.toNat = 0x7fff0000 := rfl
  have place := toNat_plus (a := heapBase) (i := start) (by omega)
  have part := toNat_plus (a := heapBase + UInt64.ofNat start) (i := i) (by omega)
  exact readExactly_covering covering (load_part parted (load_backed parted backed) inside)
    (by omega) (by omega)

/-- What is on the heap is not at address 0. -/
theorem pointer_ne_zero (parted : Parted x) {start : Nat} {bytes : Bytes}
    (backed : Backed x.heap start bytes) : heapBase + UInt64.ofNat start ≠ 0 := by
  intro zero
  have room := backed.room
  have heaps := parted.heap
  have stack : Region.stack.base = 0x7ffe0000 := rfl
  have low : heapBase.toNat = 0x10000000 := rfl
  have place := toNat_plus (a := heapBase) (i := start) (by omega)
  have none : (0 : UInt64).toNat = 0 := rfl
  rw [zero] at place
  omega

theorem readAt_int (covering : ts.Covering heapBase.toNat x m) {n : Int32}
    (loaded : x.load a 4 = .ok (Bytes.ofNat 4 n.toUInt32.toNat)) (above : heapBase.toNat ≤ a.toNat)
    (top : a.toNat + 4 ≤ stackTop.toNat) :
    readAt m config generation a (.int true 4) = .primitive (.int n.toInt) := by
  have width : intWidth 4 = 4 := rfl
  have small : n.toUInt32.toNat < 256 ^ 4 := n.toUInt32.toNat_lt
  have value : Int.bmod n.toUInt32.toNat (256 ^ 4) = n.toInt :=
    (BitVec.toInt_eq_toNat_bmod n.toBitVec).symm
  rw [readAt, readType, width, readNat_covering covering loaded above top, Bytes.toNat_ofNat,
    Nat.mod_eq_of_lt small]
  simp only [bind, Except.bind, if_true, value]

theorem readAt_bool (covering : ts.Covering heapBase.toNat x m) {b : Bool}
    (loaded : x.load a 1 = .ok [if b then 1 else 0]) (above : heapBase.toNat ≤ a.toNat)
    (top : a.toNat + 1 ≤ stackTop.toNat) :
    readAt m config generation a .bool = .primitive (.bool b) := by
  rw [readAt, readType, readNat_covering covering loaded above top]
  cases b <;> rfl

theorem readAt_text_none (covering : ts.Covering heapBase.toNat x m) (parted : Parted x)
    (lies : (Datum.text none).Lies x a) (above : heapBase.toNat ≤ a.toNat)
    (top : a.toNat + 16 ≤ stackTop.toNat) :
    readAt m config generation a .text = .null ValueType.text.render := by
  obtain ⟨start, loaded, _⟩ := lies
  rw [readAt, readType, readFat_covering covering parted (by decide) loaded above top]
  rfl

theorem readAt_text (covering : ts.Covering heapBase.toNat x m) (parted : Parted x) {t : String}
    (lies : (Datum.text (some t)).Lies x a) (above : heapBase.toNat ≤ a.toNat)
    (top : a.toNat + 16 ≤ stackTop.toNat) (short : t.toUTF8.size ≤ config.maxTextBytes) :
    readAt m config generation a .text = .text t := by
  obtain ⟨start, loaded, backed⟩ := lies
  have room := backed.room
  have heaps := parted.heap
  have stack : Region.stack.base = 0x7ffe0000 := rfl
  have whole := length_padded t.toUTF8.data.toList
  have length : t.toUTF8.data.toList.length = t.toUTF8.size := rfl
  have bytes := read_backed covering parted backed (i := 0) (k := t.toUTF8.size)
    (by rw [Datum.payload]; omega)
  have zero : heapBase + UInt64.ofNat start + UInt64.ofNat 0 = heapBase + UInt64.ofNat start :=
    UInt64.add_zero _
  rw [zero, List.drop_zero, Datum.payload, take_padded (Nat.le_of_eq length.symm),
    List.take_of_length_le (Nat.le_of_eq length)] at bytes
  rw [Datum.payload] at room
  rw [readAt, readType, readFat_covering covering parted (by omega) loaded above top]
  simp only [bind, Except.bind]
  rw [if_neg (pointer_ne_zero parted backed), length, Nat.min_eq_left short, bytes]
  exact congrArg Value.text (Text.ofUtf8Lossy_toUTF8 t)

theorem readAt_ints (generation : Nat) (covering : ts.Covering heapBase.toNat x m) (parted : Parted x) {ns : List Int32}
    (lies : (Datum.ints ns).Lies x a) (above : heapBase.toNat ≤ a.toNat)
    (top : a.toNat + 16 ≤ stackTop.toNat) (short : ns.length ≤ config.maxElements) :
    ∃ v : ArrayValue, readAt m config generation a (.slice (.int true 4)) = .array v ∧
      v.length = ns.length ∧ v.generation = generation ∧
        ∀ i n, ns[i]? = some n → readElement m config generation v i = .primitive (.int n.toInt) := by
  obtain ⟨start, loaded, backed⟩ := lies
  have room := backed.room
  have heaps := parted.heap
  have stack : Region.stack.base = 0x7ffe0000 := rfl
  have limit : stackTop.toNat = 0x7fff0000 := rfl
  have low : heapBase.toNat = 0x10000000 := rfl
  have flat := length_flatMap ns
  rw [Datum.payload] at room backed
  have whole := length_padded (ns.flatMap fun n => Bytes.ofNat 4 n.toUInt32.toNat)
  refine ⟨⟨.int true 4, heapBase + UInt64.ofNat start, ns.length, generation⟩, ?_, rfl, rfl,
    fun i n there => ?_⟩
  · rw [readAt, readType, readFat_covering covering parted (by omega) loaded above top]
    simp only [bind, Except.bind]
    rw [if_neg (pointer_ne_zero parted backed), if_neg (by omega)]
  · have inside := (List.getElem?_eq_some_iff.mp there).1
    have size : (ValueType.int true 4).byteSize.toNat = 4 := rfl
    have place := toNat_plus (a := heapBase) (i := start) (by omega)
    have next := toNat_plus (a := heapBase + UInt64.ofNat start) (i := i * 4) (by omega)
    have part := load_part parted (load_backed parted backed) (i := i * 4) (k := 4) (by omega)
    rw [part_padded (by omega), part_flatMap there] at part
    rw [readElement]
    simp only [size]
    rw [if_pos ⟨by omega, by omega⟩]
    exact readAt_int covering part (by omega) (by omega)

theorem readAt_object_none (covering : ts.Covering heapBase.toNat x m)
    (lies : (Datum.object none).Lies x a) (above : heapBase.toNat ≤ a.toNat)
    (top : a.toNat + 8 ≤ stackTop.toNat) (name : String) :
    readAt m config generation a (.pointer name) = .null name := by
  obtain ⟨start, loaded, _⟩ := lies
  have loaded : x.load a 8 = .ok (Bytes.ofWord 0) := loaded
  rw [readAt, readType, readNat_covering covering loaded above top]
  rfl

theorem readAt_object (config : Config) (generation : Nat) (covering : ts.Covering heapBase.toNat x m)
    (parted : Parted x) {bytes : Bytes}
    (lies : (Datum.object (some bytes)).Lies x a) (above : heapBase.toNat ≤ a.toNat)
    (top : a.toNat + 8 ≤ stackTop.toNat) (name : String) :
    ∃ address, readAt m config generation a (.pointer name) = .object name address ∧
      Debuggee.read m address bytes.length = .ok bytes := by
  obtain ⟨start, loaded, backed⟩ := lies
  have loaded : x.load a 8 = .ok (Bytes.ofWord (heapBase + UInt64.ofNat start)) := loaded
  have room := backed.room
  have heaps := parted.heap
  have stack : Region.stack.base = 0x7ffe0000 := rfl
  have limit : stackTop.toNat = 0x7fff0000 := rfl
  have whole := length_padded bytes
  rw [Datum.payload] at room backed
  have place := toNat_plus (a := heapBase) (i := start) (by omega)
  refine ⟨heapBase + UInt64.ofNat start, ?_, ?_⟩
  · rw [readAt, readType, readNat_covering covering loaded above top]
    simp only [bind, Except.bind, toNat_ofWord]
    rw [if_neg (pointer_ne_zero parted backed)]
  · have part := load_part parted (load_backed parted backed) (i := 0) (k := bytes.length) (by omega)
    have zero : heapBase + UInt64.ofNat start + UInt64.ofNat 0 = heapBase + UInt64.ofNat start :=
      UInt64.add_zero _
    rw [zero, List.drop_zero, take_padded (Nat.le_refl _), List.take_length] at part
    exact read_covering covering part (by omega) (by omega)

end Values

section Frames

open CallStack

/-- A frame tells of an activation what is needed to find its variables. -/
structure Depicts (e : Executable) (generation : Nat) (frame : Frame) (c : Activation) (r : Routine) :
    Prop where
  entry : r.layout.low = c.entry
  info : frame.info = some (Assembled.entryOf e r)
  base : frame.base = .framePointer
  fp : frame.fp = c.base
  generation : frame.generation = generation

variable {p : Program} {e : Executable} {rs : List Routine} {r : Routine} {floor : Nat} {ros : Roster}
  {ts : Traps} {x m : Machine} {calls : List Activation} {c : Activation} {f : UInt64}

theorem frameAt_depicts (asm : Assembled p e rs) (shown : e.Shown ros) (member : r ∈ rs)
    {index generation : Nat} {regs : Registers}
    (low : r.layout.low.toNat ≤ (if index = 0 || regs.pc = 0 then regs.pc else regs.pc - 1).toNat)
    (high : (if index = 0 || regs.pc = 0 then regs.pc else regs.pc - 1).toNat < r.layout.high.toNat)
    (entry : r.layout.low = c.entry)
    (fp : (frameAt ts m ros mainThread generation index regs).1.fp = c.base) :
    Depicts e generation (frameAt ts m ros mainThread generation index regs).1 c r := by
  have site := site_at asm shown member low high
  refine ⟨entry, ?_, ?_, fp, rfl⟩
  · show (siteAt ros _).info = _
    rw [site]
  · show ((siteAt ros _).info.map (·.frameBase)).getD .framePointer = _
    rw [site]
    rfl

/-- The frames of activations that wait depict them. -/
theorem framesFrom_depicts (asm : Assembled p e rs) (covering : ts.Covering floor x m)
    (shown : e.Shown ros) (below : codeBase.toNat + x.code.size ≤ floor) {low : Nat} {a : UInt64}
    (linked : Linked rs floor x low f (some a) calls) (room index generation : Nat) :
    List.Forall₂ (fun frame c => ∃ r ∈ rs, Depicts e generation frame c r)
      (framesFrom ts m ros mainThread generation room (index + 1) ⟨a + 5, UInt64.ofNat low, f⟩)
      (calls.take room) := by
  induction room generalizing low a f calls index with
  | zero => exact .nil
  | succ room ih =>
    cases linked with
    | @cons _ _ g r k target c rest known entry there sum above start saved word outer =>
      have look := look_call asm known there index
      have place := address_inside asm known there
      have long : (Instr.call target).length.toNat = 5 := rfl
      have first : Depicts e generation (frameAt ts m ros mainThread generation (index + 1)
          ⟨r.address k + 5, UInt64.ofNat low, f⟩).1 c r :=
        frameAt_depicts asm shown known (by rw [look]; omega) (by rw [look]; omega) entry
          (Activation.base_eq start).symm
      rw [framesFrom_waiting asm covering below above saved word outer, List.take_succ_cons]
      refine .cons ⟨r, known, first⟩ ?_
      cases site : c.site with
      | none =>
        rw [site] at outer
        cases outer
        rw [List.take_nil]
        exact .nil
      | some b =>
        rw [site] at outer
        exact ih outer (index + 1)

theorem frameAt_fp (ts : Traps) (m : Machine) (ros : Roster) (generation index : Nat)
    (regs : Registers) :
    ((frameAt ts m ros mainThread generation index regs).2 = .absent →
        (frameAt ts m ros mainThread generation index regs).1.fp = regs.sp - 8) ∧
      ((frameAt ts m ros mainThread generation index regs).2 = .pushed →
        (frameAt ts m ros mainThread generation index regs).1.fp = regs.sp) ∧
      ((frameAt ts m ros mainThread generation index regs).2 = .complete →
        (frameAt ts m ros mainThread generation index regs).1.fp = regs.fp) := by
  simp only [frameAt]
  refine ⟨fun state => ?_, fun state => ?_, fun state => ?_⟩ <;> rw [state]

/-- However far its frame is set up, the frame pointer of the innermost activation is found. -/
theorem fp_seat (asm : Assembled p e rs) (covering : ts.Covering floor x m) (shown : e.Shown ros)
    (code : x.code = e.code) (room : 8 ≤ floor) {k high : Nat}
    (seat : Seat rs floor x c calls r k high f) (generation : Nat) :
    (frameAt ts m ros mainThread generation 0 x.registers).1.fp = c.base := by
  have state : (frameAt ts m ros mainThread generation 0 x.registers).2 = r.frameState k :=
    frameAt_seat asm covering shown code seat
  obtain ⟨absent, pushed, complete⟩ := frameAt_fp ts m ros generation 0 x.registers
  have top := seat.top
  have eight : (8 : UInt64).toNat = 8 := rfl
  have long := asm.four_le seat.known
  have bare (sum : x.registers.sp.toNat + 8 = high) (above : floor ≤ x.registers.sp.toNat) :
      x.registers.sp - 8 = c.base := by
    have below := toNat_sub_small (a := x.registers.sp) (d := 8) (by omega)
    exact (Activation.base_eq (by omega)).symm
  cases seat.poised with
  | entered sum above =>
    rw [Routine.frameState, if_pos (.inl rfl)] at state
    rw [absent state]
    exact bare sum above
  | pushed sum above =>
    rw [Routine.frameState, if_neg (by omega), if_pos rfl] at state
    rw [pushed state]
    exact (Activation.base_eq (by omega)).symm
  | inside first last sum =>
    rw [Routine.frameState, if_neg (by omega), if_neg (by omega)] at state
    rw [complete state]
    exact (Activation.base_eq (by omega)).symm
  | leaving last sum above =>
    rw [Routine.frameState, if_pos (.inr last)] at state
    rw [absent state]
    exact bare sum above

/-- The frames of the walk depict the activations that there are. -/
theorem walk_depicts (asm : Assembled p e rs) (covering : ts.Covering floor x m) (shown : e.Shown ros)
    (below : codeBase.toNat + e.code.size ≤ floor) (framed : Framed e rs floor x calls)
    (most generation : Nat) :
    ∃ frames, walk ts m ros mainThread most generation = .ok frames ∧
      List.Forall₂ (fun frame c => ∃ r ∈ rs, Depicts e generation frame c r) frames
        (calls.take most) := by
  have registers : m.registers = x.registers := by
    obtain ⟨d, rfl, _⟩ := covering
    rfl
  refine ⟨framesFrom ts m ros mainThread generation most 0 x.registers, ?_, ?_⟩
  · rw [← registers]
    rfl
  · obtain ⟨c, rest, r, k, high, f, rfl, seat⟩ := framed.seated
    cases most with
    | zero => exact .nil
    | succ room =>
      have base : codeBase.toNat = 0x400000 := Assembled.toNat_codeBase
      obtain ⟨i, there⟩ : ∃ i, r.code[k]? = some i := ⟨_, List.getElem?_eq_getElem seat.there⟩
      have place := address_inside asm seat.known there
      have long := (length_bounds i).1
      have look : (if 0 = 0 || x.registers.pc = 0 then x.registers.pc
          else x.registers.pc - 1).toNat = (r.address k).toNat := congrArg UInt64.toNat seat.pc
      have first : Depicts e generation
          (frameAt ts m ros mainThread generation 0 x.registers).1 c r :=
        frameAt_depicts asm shown seat.known (by rw [look]; omega) (by rw [look]; omega) seat.entry
          (fp_seat asm covering shown framed.code (by omega) seat generation)
      have linked := seat.linked
      have caller := caller_poised asm covering (by rw [framed.code]; exact below)
        (asm.four_le seat.known) seat.poised linked
      rw [framesFrom]
      dsimp only
      rw [frameAt_seat asm covering shown framed.code seat, caller, List.take_succ_cons]
      cases site : c.site with
      | none =>
        rw [site] at linked
        cases linked
        rw [List.take_nil]
        exact .cons ⟨r, seat.known, first⟩ .nil
      | some b =>
        rw [site] at linked
        exact .cons ⟨r, seat.known, first⟩ (framesFrom_depicts asm covering shown
          (by rw [framed.code]; exact below) linked room 0 generation)

end Frames

end SourceDebugger.Machine
