import SourceDebugger.Debuggee.TrapByte
import SourceDebugger.Machine.Program
import SourceDebugger.Memory.Word
import SourceDebugger.Symbols.ModuleSymbols
/-!
Assembling a program. A first pass plans where every function and statement begins; a second emits
the instructions, which must find their places as planned, and with them the line rows and the
variables. Code bytes are written only where a debugger has to recognise an instruction; all
other bytes are fillers.
-/
namespace SourceDebugger.Machine

inductive Instr where
  | pushFrame
  | setFrame
  | reserve (size : UInt64)
  /-- Copies an argument of the call into its slot. -/
  | spill (index : Nat) (offset : Int64) (size : UInt64)
  | leave
  | ret
  | nop
  | call (target : UInt64)
  | setArg (index : Nat) (datum : Datum)
  | store (offset : Int64) (datum : Datum)
  | print (text : String)
  | break
  | jump (target : UInt64)
  | spawn (thread : Int)
  | endThread (thread : Int)
  | load (library : Nat)
  | fault (signal : Int) (description : String)
  | exit (code : Int)
  deriving DecidableEq, Repr, Inhabited

/-- That an instruction is no call is read off its form, without trying every address. -/
instance (i : Instr) : Decidable (∀ target, i = .call target → False) :=
  match i with
  | .call target => isFalse fun other => other target rfl
  | .pushFrame | .setFrame | .reserve _ | .spill _ _ _ | .leave | .ret | .nop | .setArg _ _
  | .store _ _ | .print _ | .break | .jump _ | .spawn _ | .endThread _ | .load _ | .fault _ _
  | .exit _ => isTrue nofun

/-- That an instruction reserves no room is read off its form, without trying every size. -/
instance (i : Instr) : Decidable (∀ size, i = .reserve size → False) :=
  match i with
  | .reserve size => isFalse fun other => other size rfl
  | .pushFrame | .setFrame | .spill _ _ _ | .leave | .ret | .nop | .call _ | .setArg _ _
  | .store _ _ | .print _ | .break | .jump _ | .spawn _ | .endThread _ | .load _ | .fault _ _
  | .exit _ => isTrue nofun

def codeBase : UInt64 := 0x400000
def heapBase : UInt64 := 0x10000000
def stackTop : UInt64 := 0x7fff0000
def stackSize : UInt64 := 0x10000
def libraryBase (index : Nat) : UInt64 := 0x7f0000000000 + UInt64.ofNat index * 0x100000

/-- A function begins at a multiple of this, the first one so far behind the start of the code. -/
def alignment : UInt64 := 16

def alignUp (n step : UInt64) : UInt64 := (n + step - 1) / step * step

namespace Instr

def length : Instr → UInt64
  | .call _ => 5
  | .ret | .break | .pushFrame => 1
  | _ => 4

/-- The bytes by which an instruction can be told from others. -/
def opcode (address : UInt64) : Instr → Bytes
  | .call target => 0xE8 :: Bytes.ofNat 4 (target - (address + 5)).toNat
  | .ret => [0xC3]
  | .pushFrame => [0x55]
  | .break => [trapByte]
  | _ => []

end Instr

def Op.length : Op → UInt64
  | .call _ => 5
  | .break => 1
  | _ => 4

def Statement.length (s : Statement) : UInt64 := (s.ops.map Op.length).foldl (· + ·) 0

namespace Function

def hasStorage (f : Function) : Bool := !f.arguments.isEmpty || !f.locals.isEmpty

/-- Saving the frame pointer, setting it, making room, and one copy for each argument. -/
def prologueLength (f : Function) : UInt64 :=
  1 + 4 + (if f.hasStorage then 4 else 0) + 4 * UInt64.ofNat f.arguments.length

/-- Taking the frame down and returning. -/
def epilogueLength : UInt64 := 4 + 1

/-- Where each statement of a body begins, and where the body ends. -/
def statementStarts (address : UInt64) : List Statement → List UInt64 × UInt64
  | [] => ([], address)
  | s :: rest =>
    let (starts, stop) := statementStarts (address + s.length) rest
    (address :: starts, stop)

end Function

/-- The plan for one function. -/
structure Layout where
  function : Function
  low : UInt64
  statements : List UInt64
  high : UInt64
  deriving DecidableEq, Repr, Inhabited

/-- Lays functions out one after the other. -/
def layouts (cursor : UInt64) : List Function → List Layout
  | [] => []
  | f :: rest =>
    let (statements, stop) := Function.statementStarts (cursor + f.prologueLength) f.body
    let high := stop + Function.epilogueLength
    ⟨f, cursor, statements, high⟩ :: layouts (alignUp high alignment) rest

def Program.layouts (p : Program) : List Layout :=
  Machine.layouts (codeBase + alignment) p.functions

/-- The address of a function; of functions with one name, of the last. -/
def addressOf? (plan : List Layout) (name : String) : Option UInt64 :=
  (plan.reverse.find? (·.function.name = name)).map (·.low)

/-- Gives each variable its slot below the frame pointer, `used` bytes being taken. Each slot is a
whole number of words. -/
def slots (used : UInt64) : List (String × VarType) → List VariableInfo × UInt64
  | [] => ([], used)
  | (name, type) :: rest =>
    let used := used + alignUp type.valueType.byteSize 8
    let (infos, total) := slots used rest
    (⟨name, type.valueType, .frame (-used.toInt64)⟩ :: infos, total)

/-- Why a program cannot be assembled. -/
inductive BuildFault where
  | unknownEntry (name : String)
  | unknownFunction (name caller : String)
  | unknownLocal (name function : String)
  | missingStatement (index : Nat) (function : String)
  | unknownLibrary (index : Nat)
  /-- No memory has room for the program. -/
  | tooLarge
  deriving DecidableEq, Repr

def BuildFault.message : BuildFault → String
  | .unknownEntry name => "Unknown entry function " ++ name
  | .unknownFunction name caller => "Unknown function " ++ name ++ " called from " ++ caller
  | .unknownLocal name function => "Unknown local " ++ name ++ " in " ++ function
  | .missingStatement index function =>
    "Jump to missing statement " ++ toString index ++ " in " ++ function
  | .unknownLibrary index => "Unknown library " ++ toString index
  | .tooLarge => "capacity overflow"

/-- What the operations of a function refer to. -/
structure Scope where
  plan : List Layout
  layout : Layout
  known : List VariableInfo
  libraryCount : Nat

/-- The slot of a variable; of variables with one name, of the last. -/
def Scope.slotOf? (s : Scope) (name : String) : Option Int64 :=
  match s.known.reverse.find? (·.name = name) with
  | some ⟨_, _, .frame offset⟩ => some offset
  | _ => none

/-- The instruction of an operation. -/
def Op.assemble (s : Scope) : Op → Except BuildFault Instr
  | .nop => .ok .nop
  | .call name => match addressOf? s.plan name with
    | some target => .ok (.call target)
    | none => .error (.unknownFunction name s.layout.function.name)
  | .setArg index datum => .ok (.setArg index datum)
  | .store name datum => match s.slotOf? name with
    | some offset => .ok (.store offset datum)
    | none => .error (.unknownLocal name s.layout.function.name)
  | .print text => .ok (.print text)
  | .break => .ok .break
  | .jump index => match s.layout.statements[index]? with
    | some target => .ok (.jump target)
    | none => .error (.missingStatement index s.layout.function.name)
  | .spawn thread => .ok (.spawn thread)
  | .endThread thread => .ok (.endThread thread)
  | .load index =>
    if index < s.libraryCount then .ok (.load index) else .error (.unknownLibrary index)
  | .fault signal description => .ok (.fault signal description)
  | .exit code => .ok (.exit code)

/-- Instructions placed one after the other. -/
def placeFrom (address : UInt64) : List Instr → List (UInt64 × Instr)
  | [] => []
  | i :: rest => (address, i) :: placeFrom (address + i.length) rest

/-- Where the instruction after the last one would stand. -/
def endOf (address : UInt64) (code : List Instr) : UInt64 :=
  code.foldl (fun a i => a + i.length) address

/-- A row from one address to another, if there is a line to it. -/
def rowOf (sourceFile : String) (start stop : UInt64) : Option UInt32 → List CodeRange
  | none => []
  | some line => [⟨start - codeBase, stop - codeBase, .line sourceFile line⟩]

/-- Everything that assembling one function yields. -/
structure Piece where
  placed : List (UInt64 × Instr)
  rows : List CodeRange
  info : FunctionInfo
  deriving Repr, Inhabited

def prologue (f : Function) (arguments : List VariableInfo) (frameSize : UInt64) : List Instr :=
  [.pushFrame, .setFrame] ++ (if f.hasStorage then [.reserve frameSize] else []) ++
    arguments.mapIdx fun index v => match v.place with
      | .frame offset => .spill index offset v.type.byteSize
      | _ => .nop

/-- Emits statements from where the code has got to; rows begin where the plan says. -/
def emitBody (s : Scope) (sourceFile : String) (address : UInt64) :
    List (Statement × UInt64) → Except BuildFault (List (UInt64 × Instr) × List CodeRange × UInt64)
  | [] => .ok ([], [], address)
  | (statement, start) :: rest => do
    let code ← statement.ops.mapM (Op.assemble s)
    let stop := endOf address code
    let (placed, rows, final) ← emitBody s sourceFile stop rest
    .ok (placeFrom address code ++ placed,
      rowOf sourceFile start stop statement.line ++ rows, final)

def Layout.assemble (p : Program) (plan : List Layout) (l : Layout) : Except BuildFault Piece := do
  let f := l.function
  let (arguments, used) := slots 0 f.arguments
  let (locals, used) := slots used f.locals
  let opening := prologue f arguments (alignUp used 16)
  let bodyStart := endOf l.low opening
  let scope : Scope := ⟨plan, l, arguments ++ locals, p.libraries.length⟩
  let (body, rows, bodyStop) ← emitBody scope p.sourceFile bodyStart (f.body.zip l.statements)
  let closing : List Instr := [.leave, .ret]
  .ok
    { placed := placeFrom l.low opening ++ body ++ placeFrom bodyStop closing
      rows := rowOf p.sourceFile l.low bodyStart f.openLine ++ rows ++
        rowOf p.sourceFile bodyStop (endOf bodyStop closing) f.closeLine
      info := { name := f.name, low := l.low - codeBase, high := l.high - codeBase
                frameBase := .framePointer, hasLines := false, arguments, locals } }

/-- A program ready to run. `instrs` holds at each offset the instruction that begins there. -/
structure Executable where
  path : String
  symbols : ModuleSymbols
  code : Array UInt8
  instrs : Array (Option Instr)
  entry : UInt64
  libraries : List Library
  deriving Inhabited

/-- Writes bytes at a position; what does not fit is left out. -/
def writeAt (bytes : Array UInt8) (address : Nat) : Bytes → Array UInt8
  | [] => bytes
  | b :: rest => writeAt (bytes.setIfInBounds address b) (address + 1) rest

/-- Code is filled with an instruction that does nothing. -/
def filler : UInt8 := 0x90

/-- The end of the code, with some fillers behind it. -/
def codeSize (plan : List Layout) : Nat :=
  ((plan.getLast?.map (·.high)).getD (codeBase + alignment) - codeBase + 16).toNat

/-- Bytes enough for the code of a function, and also for its frame. -/
def Function.footprint (f : Function) : Nat :=
  64 + 32 * (f.arguments.length + f.locals.length) + 5 * (f.body.map (·.ops.length)).sum

/-- Bytes enough for all code, a frame of each function, and the places of the libraries. -/
def Program.footprint (p : Program) : Nat :=
  (p.functions.map Function.footprint).sum + 0x100000 * p.libraries.length

/-- No address space has room for more. -/
def largestFootprint : Nat := 2 ^ 62

def Program.assemble (p : Program) : Except BuildFault Executable := do
  if largestFootprint ≤ p.footprint then .error .tooLarge
  let plan := p.layouts
  match addressOf? plan p.entry with
  | none => .error (.unknownEntry p.entry)
  | some entry =>
    let pieces ← plan.mapM (Layout.assemble p plan)
    let placed := pieces.flatMap (·.placed)
    let size := codeSize plan
    .ok
      { path := p.path
        symbols := .ofTables (pieces.flatMap (·.rows)) (pieces.map (·.info))
        code := placed.foldl (fun bytes (a, i) => writeAt bytes (a - codeBase).toNat (i.opcode a))
          (Array.replicate size filler)
        instrs := placed.foldl (fun is (a, i) => is.setIfInBounds (a - codeBase).toNat (some i))
          (Array.replicate size none)
        entry, libraries := p.libraries }

namespace Executable

/-- The instruction that begins at an address. -/
def instrAt? (e : Executable) (address : UInt64) : Option Instr :=
  if address < codeBase then none else (e.instrs[(address - codeBase).toNat]?).join

def addressOf? (e : Executable) (name : String) : Option UInt64 :=
  (e.symbols.functions.named? name).map fun f => codeBase + f.low

/-- Only the program itself has symbols, its libraries have none. -/
def symbolsFor (e : Executable) (path : String) : Option ModuleSymbols :=
  if Path.same path e.path then some e.symbols else none

end Executable

end SourceDebugger.Machine
