import SourceDebugger.Memory.AddressSpace
import SourceDebugger.X86.Arithmetic
import SourceDebugger.X86.Floating
/-!
Running a program one instruction at a time. An instruction either takes place or faults, and then
it has changed nothing; repeated string instructions alone may stop between two repetitions.
-/
namespace SourceDebugger.X86

/-- A processor and the memory it works on. -/
structure Core where
  cpu : Cpu
  memory : AddressSpace
  deriving Inhabited

/-- Why an instruction did not take place. -/
inductive Fault where
  | access (why : AccessFault) (address : UInt64)
  | divide
  | undefined
  deriving DecidableEq, Repr

/-- What the instruction that was just run asks of the system. -/
inductive Request where
  | none
  | trap
  | systemCall
  deriving DecidableEq, Repr, Inhabited

abbrev Run (α : Type) := EStateM Fault Core α

namespace Core

@[inline] def processor : Run Cpu := fun c => .ok c.cpu c

@[inline] def modifyCpu (f : Cpu → Cpu) : Run Unit := fun c => .ok () { c with cpu := f c.cpu }

def load (a : UInt64) (size : Nat) : Run UInt64 := fun c =>
  match c.memory.load a size with
  | .ok w => .ok w c
  | .error e => .error (.access e a) c

def store (a w : UInt64) (size : Nat) : Run Unit := fun c =>
  match c with
  | ⟨cpu, memory⟩ =>
    match memory.writable a with
    | .error e => .error (.access e a) ⟨cpu, memory⟩
    | .ok i =>
      if AddressSpace.offsetInPage a + size ≤ pageSize then .ok () ⟨cpu, memory.put i a w size⟩
      else
        match memory.storeAcross a w size with
        | .ok memory => .ok () ⟨cpu, memory⟩
        | .error e => .error (.access e a) ⟨cpu, memory⟩

/-- The program counter is already that of the following instruction. -/
def addressOf (c : Cpu) (a : Address) : UInt64 :=
  let base := match a.base with
    | some r => c.get r
    | none => if a.relative then c.pc else 0
  let index := match a.index with
    | some r => c.get r * a.scale
    | none => 0
  let sum := base + index + a.displacement
  if a.short then sum &&& 0xffffffff else sum

def read (w : Width) (o : Operand) : Run UInt64 := fun c =>
  match o with
  | .register r => .ok (c.cpu.read w r) c
  | .second r => .ok ((c.cpu.get r >>> 8) &&& 0xff) c
  | .memory a => load (addressOf c.cpu a) w.size c
  | .immediate i => .ok (i &&& w.mask) c

def write (w : Width) (o : Operand) (x : UInt64) : Run Unit := fun c =>
  match o with
  | .register r => .ok () { c with cpu := c.cpu.write w r x }
  | .second r =>
    let old := c.cpu.get r
    .ok () { c with cpu := c.cpu.set r ((old &&& ~~~(0xff00 : UInt64)) ||| ((x &&& 0xff) <<< 8)) }
  | .memory a => store (addressOf c.cpu a) x w.size c
  | .immediate _ => .error .undefined c

def setFlags (f : Flags) : Run Unit := modifyCpu fun c => { c with flags := f }

def push (w : UInt64) : Run Unit := do
  let sp := (← processor).rsp - 8
  store sp w 8
  modifyCpu fun c => { c with rsp := sp }

/-- The stack pointer has moved when the target's address is found, but not if that faults. -/
def pop (t : Operand) : Run Unit := do
  let sp := (← processor).rsp
  let x ← load sp 8
  modifyCpu fun c => { c with rsp := sp + 8 }
  fun c =>
    match write .quad t x c with
    | .error f c => .error f { c with cpu := { c.cpu with rsp := sp } }
    | r => r

def jumpTo (target : UInt64) : Run Unit := modifyCpu fun c => { c with pc := target }

def jumpBy (offset : UInt64) : Run Unit := modifyCpu fun c => { c with pc := c.pc + offset }

/-- A floating-point register. -/
def wide (n : Nat) : Run Wide := do return ((← processor).floating[n]?).getD ⟨0, 0⟩

def setWide (n : Nat) (v : Wide) : Run Unit :=
  modifyCpu fun c => { c with floating := c.floating.setIfInBounds n v }

/-- The number in the lowest part of a floating-point operand. -/
def readFloat (p : Precision) (o : FloatOperand) : Run UInt64 := do
  match o with
  | .register n =>
    return (← wide n).low &&& (if p == .single then 0xffffffff else 0xffffffffffffffff)
  | .memory a => load (addressOf (← processor) a) p.size

def readWide (o : FloatOperand) : Run Wide := do
  match o with
  | .register n => wide n
  | .memory a =>
    let place := addressOf (← processor) a
    return ⟨← load place 8, ← load (place + 8) 8⟩

/-- Moves between registers keep what they do not move; reading from memory clears it. -/
def moveFloat (size : Nat) (target source : FloatOperand) : Run Unit := do
  let p : Precision := if size = 4 then .single else .double
  match target, source with
  | .register t, .register s =>
    if size = 16 then setWide t (← wide s) else setWide t (p.put (← wide t) (← wide s).low)
  | .register t, .memory _ =>
    if size = 16 then setWide t (← readWide source) else setWide t ⟨← readFloat p source, 0⟩
  | .memory a, .register s =>
    let v ← wide s
    let place := addressOf (← processor) a
    if size = 16 then
      store (place + 8) v.high 8
      store place v.low 8
    else store place v.low size
  | .memory _, .memory _ => throw .undefined

/-- One repetition of a string instruction. -/
def stringOnce (op : StringOp) (w : Width) : Run Unit := do
  let c ← processor
  let n := UInt64.ofNat w.size
  let x ← match op with
    | .move => load c.rsi w.size
    | .store => pure c.rax
  store c.rdi x w.size
  modifyCpu fun c =>
    { c with rdi := c.rdi + n, rsi := if op == .move then c.rsi + n else c.rsi }

/-- A repeated string instruction is run again until its counter is zero. -/
def string (op : StringOp) (w : Width) (repeated : Bool) (start : UInt64) : Run Unit := do
  if !repeated then stringOnce op w
  else if (← processor).rcx != 0 then
    stringOnce op w
    modifyCpu fun c => { c with rcx := c.rcx - 1, pc := start }

/-- Runs an operation. The program counter stands behind it; `start` is where it begins. -/
def perform (start : UInt64) (o : Operation) : Run Request := do
  match o with
  | .nothing => return .none
  | .move w t s =>
    write w t (← read w s)
    return .none
  | .extend signed narrow w t s =>
    let x ← read narrow s
    modifyCpu fun c => c.write w t (if signed then narrow.extend x else x)
    return .none
  | .address w t a =>
    modifyCpu fun c => c.write w t (addressOf c a)
    return .none
  | .binary op w t s =>
    let b ← read w s
    let a ← read w t
    let (r, f) := op.apply w (← processor).flags a b
    if op.writes then write w t r
    setFlags f
    return .none
  | .unary op w t =>
    let (r, f) := op.apply w (← processor).flags (← read w t)
    write w t r
    setFlags f
    return .none
  | .shift op w t s =>
    let count ← read .byte s
    let (r, f) := op.apply w (← processor).flags (← read w t) count
    write w t r
    setFlags f
    return .none
  | .multiply w t a b =>
    let (r, f) := multiplySigned w (← processor).flags (← read w a) (← read w b)
    modifyCpu fun c => { c.write w t r with flags := f }
    return .none
  | .multiplyWide signed w s =>
    let x ← read w s
    modifyCpu fun c =>
      let (low, high, lost) := multiplyWide signed w (c.read w .rax) x
      let c := { c with flags := { c.flags with carry := lost, overflow := lost } }
      if w == .byte then c.write .word .rax (low ||| (high <<< 8))
      else (c.write w .rax low).write w .rdx high
    return .none
  | .divide signed w s =>
    let x ← read w s
    let c ← processor
    let high := if w == .byte then c.rax >>> 8 else c.rdx
    match divideWide? signed w high c.rax x with
    | none => throw .divide
    | some (q, r) =>
      if w == .byte then modifyCpu fun c => c.write .word .rax (q ||| (r <<< 8))
      else modifyCpu fun c => (c.write w .rax q).write w .rdx r
      return .none
  | .widen w =>
    let narrow : Width := match w with
      | .quad => .double
      | .double => .word
      | _ => .byte
    modifyCpu fun c => c.write w .rax (narrow.extend c.rax)
    return .none
  | .fillSign w =>
    modifyCpu fun c => c.write w .rdx (if w.isNegative c.rax then w.mask else 0)
    return .none
  | .exchange w a b =>
    let x ← read w a
    let y ← read w b
    write w a y
    write w b x
    return .none
  | .push s =>
    push (← read .quad s)
    return .none
  | .pop t =>
    pop t
    return .none
  | .leave =>
    let frame := (← processor).rbp
    let x ← load frame 8
    modifyCpu fun c => { c with rbp := x, rsp := frame + 8 }
    return .none
  | .call t =>
    let target ← read .quad t
    push (← processor).pc
    jumpTo target
    return .none
  | .jump t =>
    jumpTo (← read .quad t)
    return .none
  | .callBy offset =>
    let next := (← processor).pc
    push next
    jumpTo (next + offset)
    return .none
  | .jumpBy offset =>
    jumpBy offset
    return .none
  | .jumpIf condition offset =>
    if (← processor).flags.holds condition then jumpBy offset
    return .none
  | .return extra =>
    let target ← load (← processor).rsp 8
    modifyCpu fun c => { c with rsp := c.rsp + 8 + extra, pc := target }
    return .none
  | .setIf condition t =>
    write .byte t (if (← processor).flags.holds condition then 1 else 0)
    return .none
  | .moveIf condition w t s =>
    let x ← read w s
    modifyCpu fun c => c.write w t (if c.flags.holds condition then x else c.read w t)
    return .none
  | .string op w repeated =>
    string op w repeated start
    return .none
  | .trap => return .trap
  | .systemCall => return .systemCall
  | .floatMove size t s =>
    moveFloat size t s
    return .none
  | .floatExchange toFloat w n o =>
    if toFloat then setWide n ⟨← read w o, 0⟩ else write w o (← wide n).low
    return .none
  | .floatBinary op p t s =>
    let x ← readFloat p s
    let old ← wide t
    setWide t (p.put old (op.onBits p old.low x))
    return .none
  | .floatCompare p a b =>
    let x ← readFloat p (.register a)
    setFlags (compareFlags (p.value x) (p.value (← readFloat p b)))
    return .none
  | .floatConvert source target n o =>
    let x ← readFloat source o
    setWide n (target.put (← wide n) (target.bits (source.value x)))
    return .none
  | .floatOfInt p w t s =>
    let x ← read w s
    setWide t (p.put (← wide t) (floatOfInt p w x))
    return .none
  | .intOfFloat p w t s =>
    let x ← readFloat p s
    modifyCpu fun c => c.write w t (integerPart w (p.value x))
    return .none
  | .floatXor t s =>
    let x ← readWide s
    let old ← wide t
    setWide t ⟨old.low ^^^ x.low, old.high ^^^ x.high⟩
    return .none

/-- No instruction is longer. -/
def longest : Nat := 15

/-- The bytes from an address on that may be run, at most so many; they may lie on two pages. -/
def gather (m : AddressSpace) (a : UInt64) : (most : Nat) → ByteArray → ByteArray
  | 0, bytes => bytes
  | n + 1, bytes =>
    match m.access a (·.execute) with
    | .ok (_, page) =>
      gather m (a + 1) n (bytes.push (AddressSpace.pageByte page (AddressSpace.offsetInPage a)))
    | .error _ => bytes

/-- Reads the instruction at an address. If the bytes run out before it is complete, the access to
the next page is what fails. -/
def fetch (m : AddressSpace) (pc : UInt64) : Except Fault Encoding :=
  match m.access pc (·.execute) with
  | .error e => .error (.access e pc)
  | .ok (_, page) =>
    let i := AddressSpace.offsetInPage pc
    if i + longest ≤ pageSize then
      match Encoding.read? page i with
      | some e => .ok e
      | none => .error .undefined
    else
      let bytes := gather m pc longest .empty
      match Encoding.read? bytes 0 with
      | some e => .ok e
      | none =>
        if bytes.size < longest then
          .error (.access .unmapped (pc + UInt64.ofNat bytes.size))
        else .error .undefined

/-- Runs one instruction. -/
def step : Run Request := fun c =>
  let start := c.cpu.pc
  match fetch c.memory start with
  | .error f => .error f c
  | .ok e =>
    match e.operation? with
    | none => .error .undefined c
    | some o =>
      let behind := { c with cpu := { c.cpu with pc := start + UInt64.ofNat e.length } }
      match perform start o behind with
      | .ok r c => .ok r c
      | .error f c => .error f { c with cpu := { c.cpu with pc := start } }

/-- Runs up to so many instructions, as long as they ask nothing of the system. How many were left
is the result. -/
def runFor : (most : Nat) → Core → EStateM.Result Fault Core (Request × Nat)
  | 0, c => .ok (.none, 0) c
  | n + 1, c =>
    match step c with
    | .ok .none c => runFor n c
    | .ok r c => .ok (r, n) c
    | .error f c => .error f c

end Core

end SourceDebugger.X86
