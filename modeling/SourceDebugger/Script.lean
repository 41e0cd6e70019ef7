import SourceDebugger.Debuggee.Basic
import SourceDebugger.Path
import SourceDebugger.Symbols.ModuleSymbols
/-!
A debuggee that follows a script: what it reports is written down beforehand, and so is which
operations fail. Operations that would make a real debuggee move change nothing, but are noted.
-/
namespace SourceDebugger

/-- Operations that can be made to fail, and are noted. -/
inductive ScriptedAction where
  | resume (mode : ResumeMode)
  | write (address : UInt64) (bytes : Bytes)
  | setRegisters (thread : ThreadId) (registers : Registers)
  | interrupt
  | terminate
  deriving DecidableEq, Repr

namespace ScriptedAction

/-- The name of the kind of action, by which failures are counted. -/
def kind : ScriptedAction → String
  | .resume _ => "resume"
  | .write .. => "write"
  | .setRegisters .. => "set_context"
  | .interrupt => "interrupt"
  | .terminate => "terminate"

def render : ScriptedAction → String
  | .resume .continue => "resume continue"
  | .resume (.step thread) => "resume step " ++ toString thread
  | .write address bytes => "write " ++ Text.hexMarked address.toNat ++ " " ++ Bytes.render bytes
  | .setRegisters thread r =>
    "set_context " ++ toString thread ++ " " ++ Text.hexMarked r.pc.toNat ++ " "
      ++ Text.hexMarked r.sp.toNat ++ " " ++ Text.hexMarked r.fp.toNat
  | .interrupt => "interrupt"
  | .terminate => "terminate"

end ScriptedAction

/-- What one look for an event finds. -/
inductive ScriptedFinding where
  | event (e : Event)
  | nothing
  | failure (text : String)
  deriving DecidableEq, Repr

/-- A finding, and how registers and memory are changed just before it. -/
structure ScriptedMoment where
  finding : ScriptedFinding
  registers : List (ThreadId × Registers)
  memory : List (UInt64 × Bytes)
  deriving DecidableEq, Repr

structure Region where
  base : UInt64
  bytes : Bytes
  deriving DecidableEq, Repr

namespace Region

/-- Whether a stretch lies within a region. -/
def covers (region : Region) (address : UInt64) (size : Nat) : Bool :=
  region.base ≤ address && address.toNat + size ≤ region.base.toNat + region.bytes.length

def offset (region : Region) (address : UInt64) : Nat := address.toNat - region.base.toNat

end Region

/-- A debuggee and how far it has come in its script. -/
structure Scripted where
  pid : Int
  registers : List (ThreadId × Registers)
  memory : List Region
  moments : List ScriptedMoment
  /-- Which calls, counted from 1 for each kind, fail. -/
  failures : List (String × List Nat)
  /-- What was done, the last action first, and whether it failed. -/
  log : List (ScriptedAction × Bool)
  deriving Repr

namespace Scripted

def fault (text : String) : Fault := .described ("mock " ++ text)

/-- The registers of a thread; of several entries the first counts. -/
def registersOf (s : Scripted) (thread : ThreadId) : Except Fault Registers :=
  match s.registers.lookup thread with
  | some r => .ok r
  | none => .error (fault ("has no thread " ++ toString thread))

def putRegisters (s : Scripted) (thread : ThreadId) (r : Registers) : Scripted :=
  { s with registers := (thread, r) :: s.registers.filter (·.1 ≠ thread) }

def unmapped (address : UInt64) : Fault := fault ("unmapped " ++ Text.hexMarked address.toNat)

def inAddressSpace (address : UInt64) (size : Nat) : Bool := address.toNat + size < 2 ^ 64

def load (s : Scripted) (address : UInt64) (size : Nat) : Except Fault Bytes :=
  if size = 0 then .ok []
  else match s.memory.find? (Region.covers · address size) with
    | some region =>
      if inAddressSpace address size then
        .ok ((region.bytes.drop (region.offset address)).take size)
      else .error (unmapped address)
    | none => .error (unmapped address)

/-- Replaces bytes from a position on. -/
def overwrite (old : Bytes) (position : Nat) (new : Bytes) : Bytes :=
  old.take position ++ new ++ old.drop (position + new.length)

/-- Writes into the first region of several that covers the stretch. -/
def overwriteIn (address : UInt64) (new : Bytes) : List Region → Option (List Region)
  | [] => none
  | region :: rest =>
    if region.covers address new.length then
      some ({ region with bytes := overwrite region.bytes (region.offset address) new } :: rest)
    else (overwriteIn address new rest).map (region :: ·)

def storeRaw (s : Scripted) (address : UInt64) (new : Bytes) : Except Fault Scripted :=
  match overwriteIn address new s.memory with
  | some memory =>
    if inAddressSpace address new.length then .ok { s with memory } else .error (unmapped address)
  | none => .error (unmapped address)

/-- Changes what a moment changes; memory outside all regions stays as it is. -/
def prepare (s : Scripted) (m : ScriptedMoment) : Scripted :=
  let s := m.registers.foldl (fun s (thread, r) => s.putRegisters thread r) s
  m.memory.foldl (fun s (address, bytes) => (s.storeRaw address bytes).toOption.getD s) s

def poll : Access Scripted (Option Event) := do
  match (← get).moments with
  | [] => throw (fault "script exhausted")
  | moment :: rest =>
    modify fun s => { s with moments := rest }.prepare moment
    match moment.finding with
    | .event e => return some e
    | .nothing => return none
    | .failure text => throw (.described text)

/-- How often an action of a kind was tried so far. -/
def tries (s : Scripted) (kind : String) : Nat := (s.log.filter (·.1.kind == kind)).length

/-- Notes an action and fails if the script says so. -/
def act (action : ScriptedAction) : Access Scripted Unit := do
  let s ← get
  let fails := (s.failures.any fun (kind, numbers) =>
    kind == action.kind && numbers.contains (s.tries kind + 1))
  set { s with log := (action, fails) :: s.log }
  if fails then throw (fault (action.kind ++ " failed")) else pure ()

def write (address : UInt64) (bytes : Bytes) : Access Scripted Unit := do
  act (.write address bytes)
  match (← get).storeRaw address bytes with
  | .ok s => set s
  | .error e => throw e

def decode (address : UInt64) : Bytes → Except Fault Instruction
  | [] => .error (fault ("has no code at " ++ Text.hexMarked address.toNat))
  | 0xE8 :: _ => .ok ⟨address, 5, .call⟩
  | 0xC3 :: _ => .ok ⟨address, 1, .return⟩
  | 0x55 :: _ => .ok ⟨address, 1, .pushFramePointer⟩
  | 0x0F :: _ => .error (fault ("cannot decode " ++ Text.hexMarked address.toNat))
  | _ :: _ => .ok ⟨address, 1, .other⟩

instance : Debuggee Scripted where
  pid s := s.pid
  poll _ := poll
  resume mode := act (.resume mode)
  read := load
  write := write
  registers := registersOf
  setRegisters thread r := do
    act (.setRegisters thread r)
    modify (·.putRegisters thread r)
  decode _ := decode
  interrupt := act .interrupt
  terminate := act .terminate

/-- What was done so far, in order. A failed action is marked. -/
def actions (s : Scripted) : List String :=
  s.log.reverse.map fun (action, failed) => action.render ++ if failed then " !" else ""

end Scripted

/-- The scripts of a session's runs, one after the other. -/
structure ScriptedRuns where
  launches : List (Except String Scripted)
  symbols : List (String × ModuleSymbols)
  /-- Paths whose symbols cannot be loaded. -/
  unreadable : List String

namespace ScriptedRuns

def launch (r : ScriptedRuns) : Launch Scripted := fun n _ =>
  match r.launches[n]? with
  | some (.ok s) => .ok s
  | some (.error text) => .error (.described text)
  | none => .error (Scripted.fault "has no more launches")

def symbolsOf (r : ScriptedRuns) (path : String) : Option ModuleSymbols :=
  if r.unreadable.contains path then none
  else (r.symbols.find? fun (p, _) => Path.same p path).map (·.2)

end ScriptedRuns

end SourceDebugger
