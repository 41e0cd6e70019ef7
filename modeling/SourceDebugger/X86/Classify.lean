import SourceDebugger.Debuggee.Basic
import SourceDebugger.X86.Encoding
/-!
The instructions that matter to stepping and unwinding: calls, returns, and the one that saves the
frame pointer. A call or return with a prefix that changes its name is not one of them.
-/
namespace SourceDebugger.X86

namespace Encoding

/-- One of the prefixes for repetition changes the names of calls and returns. -/
def isMarked (e : Encoding) : Bool := e.prefixes.repetition == 0xf2

/-- Saves the frame pointer, in the short or the long form. -/
def isPushFramePointer (e : Encoding) : Bool :=
  e.prefixes.rex &&& 1 == 0 && (!e.prefixes.narrow || e.wide)
    && (e.opcode == 0x55 || (e.opcode == 0xff && e.modrm == 0xf5))

def kind (e : Encoding) : InstructionKind :=
  if e.table != .primary || e.prefixes.locked then .other
  else if e.isPushFramePointer then .pushFramePointer
  else if e.isMarked then .other
  else if e.opcode == 0xe8 || (e.opcode == 0xff && e.middle == 2) then .call
  else if e.opcode == 0xc3 || e.opcode == 0xc2 then .return
  else .other

end Encoding

/-- Classifies the instruction that some bytes begin with. -/
def classify (address : UInt64) (code : Bytes) : Except Fault Instruction :=
  match Encoding.read? (ByteArray.mk code.toArray) 0 with
  | some e => .ok ⟨address, UInt64.ofNat e.length, e.kind⟩
  | none => .error (.noInstruction address)

end SourceDebugger.X86
