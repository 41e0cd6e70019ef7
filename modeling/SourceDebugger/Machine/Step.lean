import SourceDebugger.Machine.State
/-!
One instruction of the machine. An instruction has moved the program counter on before anything in
it can fail. Whether the program has come to a stop or an end is the result.
-/
namespace SourceDebugger.Machine

def segmentationFault : Int := 11

/-- The bytes of an argument, cut or filled up with zeros to the size of its slot. -/
def argumentBytes (m : Machine) (index : Nat) (size : Nat) : Bytes :=
  let bytes := (m.arguments[index]?.getD []).take size
  bytes ++ List.replicate (size - bytes.length) 0

/-- Missing arguments before a new one are empty. -/
def setArgument (arguments : Array Bytes) (index : Nat) (bytes : Bytes) : Array Bytes :=
  (arguments.appendList (List.replicate (index + 1 - arguments.size) [])).setIfInBounds index bytes

/-- What an instruction does once the program counter stands at `next`. -/
def effect (next : UInt64) : Instr → Access Machine Bool
  | .pushFrame => do push (← get).registers.fp; return false
  | .setFrame => do setFp (← get).registers.sp; return false
  | .reserve size => do setSp ((← get).registers.sp - size); return false
  | .spill index offset size => do
    let m ← get
    store (m.registers.fp + offset.toUInt64) (argumentBytes m index size.toNat)
    return false
  | .leave => do
    setSp (← get).registers.fp
    setFp (← pop)
    return false
  | .ret => do
    let target ← pop
    setPc target
    if target = 0 then
      exitWith 0
      return true
    return false
  | .nop | .break => return false
  | .call target => do
    push next
    setPc target
    return false
  | .setArg index datum => do
    let bytes ← encode datum
    modify fun m => { m with arguments := setArgument m.arguments index bytes }
    return false
  | .store offset datum => do
    let bytes ← encode datum
    store ((← get).registers.fp + offset.toUInt64) bytes
    return false
  | .print text => do emit (.output text); return false
  | .jump target => do setPc target; return false
  | .spawn thread => do
    modify fun m => { m with threads := m.threads ++ [thread] }
    emit (.threadStarted thread)
    return false
  | .endThread thread => do
    modify fun m => { m with threads := m.threads.filter (· ≠ thread) }
    emit (.threadEnded thread)
    return false
  | .load index => do
    match (← get).executable.libraries[index]? with
    | some l => emit (.moduleLoaded l.path (libraryBase index) l.size)
    | none => pure ()
    return false
  | .fault signal description => do
    modify fun m => { m with pendingSignal := some signal }
    stopWith (.signal mainThread signal description)
    return true
  | .exit code => do exitWith code; return true

/-- Executes the instruction at the program counter, or the trap that stands in its place. -/
def execute : Access Machine Bool := do
  let m ← get
  let pc := m.registers.pc
  match m.executable.instrAt? pc with
  | none =>
    modify fun m => { m with pendingSignal := some segmentationFault }
    stopWith (.signal mainThread segmentationFault
      ("Invalid instruction pointer " ++ Text.hexMarked pc.toNat))
    return true
  | some instr =>
    if m.code[(pc - codeBase).toNat]? = some trapByte ∨ instr = .break then
      setPc (pc + 1)
      stopWith (.trap mainThread (pc + 1) .software)
      return true
    else
      let next := pc + instr.length
      setPc next
      effect next instr

end SourceDebugger.Machine
