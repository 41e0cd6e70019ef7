import SourceDebugger.Path
import SourceDebugger.Symbols.Search
import SourceDebugger.Symbols.Source
/-!
The statements of a module in the order of their code. Rows are built from any list of ranges; the
three questions asked of a table are which row an offset lies in, which row a source line
starts, and whether a stretch of code has rows at all.
-/
namespace SourceDebugger

structure LineTable where
  rows : Array CodeRange
  deriving Repr, Inhabited

namespace LineTable

/-- Ranges that touch and have the same segment are one statement; `last` is the row still open. -/
def merge (last : CodeRange) : List CodeRange → List CodeRange
  | [] => [last]
  | r :: rest =>
    if last.stop = r.start ∧ last.segment = r.segment then merge { last with stop := r.stop } rest
    else last :: merge r rest

/-- Sorts by start, drops empty ranges, and merges neighbours. -/
def ofRanges (ranges : List CodeRange) : LineTable :=
  let sorted := ranges.mergeSort fun a b => a.start ≤ b.start
  match sorted.filter fun r => r.start < r.stop with
  | [] => ⟨#[]⟩
  | r :: rest => ⟨(merge r rest).toArray⟩

def size (t : LineTable) : Nat := t.rows.size

/-- The row that contains an offset. -/
def lookup (t : LineTable) (offset : UInt64) : Option CodeRange :=
  (lastBefore? t.rows fun r => r.start ≤ offset).filter (·.contains offset)

/-- The row with the least start; of several the first. -/
def earliest : List CodeRange → Option CodeRange
  | [] => none
  | r :: rest => match earliest rest with
    | some s => if s.start < r.start then some s else some r
    | none => some r

/-- Rows that start on the line come before rows that only reach over it. -/
def resolve (t : LineTable) (file : String) (line : UInt32) : Option CodeRange :=
  let candidates := t.rows.toList.filter fun r => SourceFile.matchNames r.segment.file file
  let starting := candidates.filter fun r => r.segment.firstLine = line
  let spanning := candidates.filter fun r =>
    r.segment.firstLine < line && line ≤ r.segment.lastLine
  (earliest starting).or (earliest spanning)

/-- Whether some row reaches into the stretch from `low` up to `high`. -/
def hasRowsIn (t : LineTable) (low high : UInt64) : Bool :=
  match t.rows[boundary t.rows fun r => r.stop ≤ low]? with
  | some r => r.start < high
  | none => false

end LineTable

end SourceDebugger
