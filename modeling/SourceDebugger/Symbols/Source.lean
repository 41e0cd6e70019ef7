import SourceDebugger.Text.Numeral
/-!
Places in source text, and the code a statement occupies. Offsets are relative to the start of the
module the code belongs to unless a definition says otherwise.
-/
namespace SourceDebugger

/-- A stretch of lines of one file. -/
structure Segment where
  file : String
  firstLine : UInt32
  lastLine : UInt32
  column : Option UInt32
  deriving DecidableEq, Repr, Inhabited

namespace Segment

/-- The segment that is one line. -/
def line (file : String) (n : UInt32) : Segment := ⟨file, n, n, none⟩

def render (s : Segment) : String :=
  if s.firstLine = s.lastLine then s.file ++ ":" ++ toString s.firstLine.toNat
  else s.file ++ ":" ++ toString s.firstLine.toNat ++ "-" ++ toString s.lastLine.toNat

end Segment

/-- The code of one statement: from `start` up to, not including, `stop`. -/
structure CodeRange where
  start : UInt64
  stop : UInt64
  segment : Segment
  deriving DecidableEq, Repr, Inhabited

def CodeRange.contains (r : CodeRange) (offset : UInt64) : Bool :=
  r.start ≤ offset && offset < r.stop

/-- Moves a range from module offsets to addresses. -/
def CodeRange.shift (r : CodeRange) (base : UInt64) : CodeRange :=
  { r with start := r.start + base, stop := r.stop + base }

end SourceDebugger
