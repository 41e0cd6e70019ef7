import SourceDebugger.Dwarf.Variables
/-!
The functions of a unit with their variables. A variable belongs to the function whose entry it can
be reached from through blocks only: what lies in a nested function, or in a function that was
expanded in place, is not its.
-/
namespace SourceDebugger.Dwarf

/-- The stretch of code of a function. Declarations have none; an end written as a number is a
size. -/
def codeOf? (s : Sections) (u : DebugUnit) (e : Entry) : Option (Option (UInt64 × UInt64)) := do
  match e.find? .lowPc, e.find? .highPc with
  | some low, some high =>
    match ← u.address? s low with
    | none => some none
    | some low =>
      let high ← match high.natural? with
        | some size => some (some (low + UInt64.ofNat size))
        | none => u.address? s high
      some (high.bind fun high => if high ≤ low then none else some (low, high))
  | some low, none => do
    let _ ← u.address? s low
    some none
  | none, _ => some none

/-- The name of a function, which may be given by the entry that it specifies or comes from. -/
def functionName? (s : Sections) (u : DebugUnit) (e : Entry) : Option (Option String) := do
  match ← u.name? s e with
  | some name => some (some name)
  | none => nameOfFirst [.specification, .abstractOrigin]
where
  nameOfFirst : List AttributeName → Option (Option String)
    | [] => some none
    | link :: rest =>
      match e.reference? link with
      | none => nameOfFirst rest
      | some offset => do
        let (declaration, _) ← u.reader.entryAt? offset
        match ← u.name? s declaration with
        | some name => some (some name)
        | none => nameOfFirst rest

/-- What the function's frame offsets are counted from, by the first operation of an expression. -/
def frameBaseOf (e : Entry) : FrameBase :=
  match e.find? .frameBase with
  | some (.block (0x57 :: _)) => .stackPointer
  | some (.block (0x9c :: _)) => .canonicalAddress
  | _ => .framePointer

/-- A function without its variables, if the entry has code and a name. -/
def functionHeader? (s : Sections) (u : DebugUnit) (e : Entry) : Option (Option FunctionInfo) := do
  match ← codeOf? s u e with
  | none => some none
  | some (low, high) =>
    some ((← functionName? s u e).map fun name =>
      { name, low, high, frameBase := frameBaseOf e, hasLines := false
        arguments := [], locals := [] })

/-- What is found below an entry: variables of the function around it, and functions. -/
structure Found where
  arguments : List VariableInfo
  locals : List VariableInfo
  functions : List FunctionInfo
  deriving Inhabited

namespace Found

def nothing : Found := ⟨[], [], []⟩

def append (a b : Found) : Found :=
  ⟨a.arguments ++ b.arguments, a.locals ++ b.locals, a.functions ++ b.functions⟩

/-- Without the variables. -/
def functionsOnly (f : Found) : Found := { nothing with functions := f.functions }

end Found

mutual

/-- Collects what an entry and those below it describe; variables only inside a function. -/
def collect? (s : Sections) (u : DebugUnit) (inside : Bool) : Tree → Option Found
  | .node e children =>
    match e.tag with
    | .subprogram => do
      match ← functionHeader? s u e with
      | some header =>
        let below ← collectAll? s u true children
        let function := { header with arguments := below.arguments, locals := below.locals }
        some { Found.nothing with functions := below.functions ++ [function] }
      | none => some (← collectAll? s u false children).functionsOnly
    | .formalParameter =>
      if inside then do some { Found.nothing with arguments := (← variableOf? s u e).toList }
      else some .nothing
    | .variable =>
      if inside then do some { Found.nothing with locals := (← variableOf? s u e).toList }
      else some .nothing
    | .lexicalBlock => collectAll? s u inside children
    | _ => do some (← collectAll? s u false children).functionsOnly

def collectAll? (s : Sections) (u : DebugUnit) (inside : Bool) : List Tree → Option Found
  | [] => some .nothing
  | t :: rest => do some ((← collect? s u inside t).append (← collectAll? s u inside rest))

end

/-- Parameters and variables have nothing of interest below them. -/
def isEntered : Tag → Bool
  | .formalParameter | .variable => false
  | _ => true

/-- The functions of a unit. The root itself is none. -/
def functionsOf? (s : Sections) (u : DebugUnit) : Option (List FunctionInfo) := do
  let .node _ children ← u.reader.treeAt? u.reader.header.entriesOffset isEntered
  some (← collectAll? s u false children).functions

end SourceDebugger.Dwarf
