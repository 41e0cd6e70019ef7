import SourceDebugger.Debuggee.Event
import SourceDebugger.Path
import SourceDebugger.Symbols.ModuleSymbols
/-!
Modules as they lie in the debuggee's memory. Symbols speak of offsets; here they are asked by
address, and what they answer is moved to addresses.
-/
namespace SourceDebugger

structure LoadedModule where
  path : String
  base : UInt64
  size : UInt64
  symbols : Option ModuleSymbols
  deriving Repr, Inhabited

namespace LoadedModule

def name (m : LoadedModule) : String := Path.lastPart m.path

def contains (m : LoadedModule) (address : UInt64) : Bool :=
  m.base ≤ address && address < m.base + m.size

/-- Asks the symbols about an address at or above the module's base. -/
def ask {α : Type} (m : LoadedModule) (address : UInt64)
    (question : ModuleSymbols → UInt64 → Option α) : Option α := do
  let symbols ← m.symbols
  if address < m.base then none else question symbols (address - m.base)

def lineAt? (m : LoadedModule) (address : UInt64) : Option CodeRange :=
  (m.ask address fun s offset => s.lines.lookup offset).map (·.shift m.base)

def functionAt? (m : LoadedModule) (address : UInt64) : Option FunctionInfo :=
  m.ask address ModuleSymbols.functionAt?

def resolve? (m : LoadedModule) (file : String) (line : UInt32) : Option CodeRange := do
  let symbols ← m.symbols
  (symbols.lines.resolve file line).map (·.shift m.base)

end LoadedModule

/-- The process that is being debugged, or was. -/
structure ProcessRecord where
  pid : Int
  request : LaunchRequest
  hasExited : Bool
  exitCode : Option Int
  deriving DecidableEq, Repr

/-- What the debuggee consists of, as far as it has told. -/
structure Roster where
  process : Option ProcessRecord
  modules : List LoadedModule
  /-- In ascending order. -/
  threads : List ThreadId
  /-- The thread that stopped last. -/
  current : Option ThreadId
  deriving Repr

namespace Roster

def empty : Roster := ⟨none, [], [], none⟩

/-- Starts over with a new process. -/
def ofProcess (p : ProcessRecord) : Roster := { empty with process := some p }

/-- Only the record of the process outlives it. -/
def exited (r : Roster) (code : Option Int) : Roster :=
  { empty with process := r.process.map fun p => { p with hasExited := true, exitCode := code } }

/-- At one base there is one module, the newest. -/
def addModule (r : Roster) (m : LoadedModule) : Roster :=
  { r with modules := r.modules.filter (·.base ≠ m.base) ++ [m] }

def moduleBased? (r : Roster) (base : UInt64) : Option LoadedModule :=
  r.modules.find? (·.base = base)

def removeModule (r : Roster) (base : UInt64) : Roster :=
  { r with modules := r.modules.filter (·.base ≠ base) }

def moduleAt? (r : Roster) (address : UInt64) : Option LoadedModule :=
  r.modules.find? (·.contains address)

/-- A module is named by its file name or by its whole path. -/
def moduleNamed? (r : Roster) (name : String) : Option LoadedModule :=
  r.modules.find? fun m => m.name = name || m.path = name

def lineAt? (r : Roster) (address : UInt64) : Option CodeRange :=
  (r.moduleAt? address).bind (·.lineAt? address)

def functionAt? (r : Roster) (address : UInt64) : Option FunctionInfo :=
  (r.moduleAt? address).bind (·.functionAt? address)

/-- Inserts into an ascending list without repeats. -/
def insertThread (t : ThreadId) : List ThreadId → List ThreadId
  | [] => [t]
  | u :: rest =>
    if t < u then t :: u :: rest else if t = u then u :: rest else u :: insertThread t rest

def addThread (r : Roster) (t : ThreadId) : Roster := { r with threads := insertThread t r.threads }

def removeThread (r : Roster) (t : ThreadId) : Roster :=
  { r with threads := r.threads.filter (· ≠ t)
           current := if r.current = some t then none else r.current }

def setCurrent (r : Roster) (t : ThreadId) : Roster := { r.addThread t with current := some t }

end Roster

end SourceDebugger
