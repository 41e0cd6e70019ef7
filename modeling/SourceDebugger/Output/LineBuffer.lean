import SourceDebugger.Path
/-!
Output arrives in pieces that have nothing to do with lines. The buffer gives out whole lines, each
with one line feed at its end, and keeps the rest.
-/
namespace SourceDebugger

structure LineBuffer where
  rest : List Char
  deriving DecidableEq, Repr

namespace LineBuffer

def empty : LineBuffer := ⟨[]⟩

/-- A carriage return before the line feed belongs to the line's end. -/
def finish (line : List Char) : String :=
  String.ofList ((if line.getLast? = some '\r' then line.dropLast else line) ++ ['\n'])

/-- Adds a piece; the lines that it completes come out. -/
def push (b : LineBuffer) (text : String) : List String × LineBuffer :=
  let pieces := splitAtSep (· == '\n') (b.rest ++ text.toList)
  (pieces.dropLast.map finish, ⟨pieces.getLast?.getD []⟩)

/-- What no line feed has ended, if there is any. -/
def flush (b : LineBuffer) : Option String :=
  if b.rest.isEmpty then none else some (String.ofList b.rest)

end LineBuffer

end SourceDebugger
