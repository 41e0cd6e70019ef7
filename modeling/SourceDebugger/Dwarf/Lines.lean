import SourceDebugger.Dwarf.LineProgram
import SourceDebugger.Dwarf.Ranges
import SourceDebugger.Symbols.LineTable
/-!
Source positions of all code. The rows of a program fall into sequences, one for each stretch of
code; they are listed by the stretches that units cover, in the order of the stretches' ends. Where
rows cannot be read the listing ends, and keeps what it has.
-/
namespace SourceDebugger.Dwarf

/-- The rows of a stretch of code. Each reaches to the next one, or to the end. -/
structure LineSequence where
  start : UInt64
  stop : UInt64
  rows : List LineRow
  deriving Repr, Inhabited

/-- Of several rows at one address the last one counts. -/
def addRow (rows : List LineRow) (r : LineRow) : List LineRow :=
  match rows with
  | last :: before => if last.address = r.address then r :: before else r :: rows
  | [] => [r]

/-- Cuts rows into sequences; `open_` holds the rows of the sequence begun, the last one first. What
no end mark follows is lost. -/
def sequencesOf (open_ : List LineRow) : List LineRow → List LineSequence
  | [] => []
  | r :: rest =>
    if r.isEnd then
      match open_.reverse with
      | [] => sequencesOf [] rest
      | first :: more => ⟨first.address, r.address, first :: more⟩ :: sequencesOf [] rest
    else sequencesOf (addRow open_ r) rest

/-- The source positions of one unit. -/
structure UnitLines where
  /-- Names of files, by their numbers. -/
  files : List String
  /-- In the order of their starts. -/
  sequences : List LineSequence
  deriving Inhabited

/-- Paths may be those of other systems: these are rooted by a backslash or by a drive. -/
def hasForeignRoot (path : String) : Bool :=
  match path.toList with
  | '\\' :: _ => true
  | c :: ':' :: '\\' :: _ => c.toNat < 128
  | _ => false

/-- Appends a path to another one, unless it is rooted itself. -/
def joinPath (base part : String) : String :=
  if part.startsWith "/" || hasForeignRoot part then part
  else
    let separator := if hasForeignRoot base then "\\" else "/"
    if base.isEmpty || base.endsWith separator then base ++ part else base ++ separator ++ part

/-- A file's name in its directory in the unit's directory, whose number is 0. -/
def fileName? (s : Sections) (u : DebugUnit) (p : LineProgram) (home : Option String)
    (f : FileEntry) :
    Option String := do
  let base := home.getD ""
  let index := if p.encoding.version ≤ 4 then f.directory - 1 else f.directory
  let base ← if f.directory = 0 then some base
    else match p.directories[index]? with
      | none => some base
      | some directory => (u.text? s directory).map fun d => joinPath base (Text.ofUtf8Lossy d)
  some (joinPath base (Text.ofUtf8Lossy (← u.text? s f.name)))

/-- A text of the root that is none if it cannot be read. -/
def DebugUnit.rootText? (s : Sections) (u : DebugUnit) (key : AttributeName) : Option Bytes :=
  (u.rootValue? key).bind (u.text? s)

/-- The names of all files by number. In older programs file 0 is the unit's own. -/
def fileNames? (s : Sections) (u : DebugUnit) (p : LineProgram) (files : List FileEntry) :
    Option (List String) := do
  let home := (u.rootText? s .directory).map Text.ofUtf8Lossy
  let nameOf := fileName? s u p home
  if p.encoding.version ≤ 4 then
    let own ← match u.rootText? s .name with
      | some name => nameOf ⟨.text name, 0⟩
      | none => some ""
    some (own :: (← files.mapM nameOf))
  else if files.isEmpty then some [""]
  else files.mapM nameOf

def unitLines? (s : Sections) (u : DebugUnit) (p : LineProgram) : Option UnitLines := do
  let (rows, defined) ← p.rows?
  let sequences := (sequencesOf [] rows).mergeSort fun a b => a.start ≤ b.start
  some ⟨← fileNames? s u p (p.files ++ defined), sequences⟩

/-- Rows with the addresses at which they end. -/
def withStops (stop : UInt64) : List LineRow → List (LineRow × UInt64)
  | [] => []
  | [r] => [(r, stop)]
  | r :: next :: rest => (r, next.address) :: withStops stop (next :: rest)

/-- The rows from the one that contains an address on; all if none does. -/
def rowsFrom (low : UInt64) : List (LineRow × UInt64) → List (LineRow × UInt64)
  | [] => []
  | [r] => [r]
  | r :: next :: rest =>
    if next.1.address ≤ low then rowsFrom low (next :: rest) else r :: next :: rest

/-- The rows of sequences up to the first that begins at or behind an address. -/
def rowsUpTo (high : UInt64) : List LineSequence → List (LineRow × UInt64)
  | [] => []
  | q :: rest =>
    if high ≤ q.start then []
    else
      let rows := withStops q.stop q.rows
      let taken := rows.takeWhile fun r => r.1.address < high
      if taken.length < rows.length then taken else taken ++ rowsUpTo high rest

/-- The rows of a stretch: from the row that contains its beginning up to its end. -/
def rowsIn (lines : UnitLines) (stretch : Stretch) : List (LineRow × UInt64) :=
  match lines.sequences.dropWhile fun q => q.stop ≤ stretch.low with
  | [] => []
  | q :: rest =>
    let first := (rowsFrom stretch.low (withStops q.stop q.rows)).map (·.1)
    rowsUpTo stretch.high ({ q with rows := first } :: rest)

/-- A row as a range with its position. Rows without a file or line have none. -/
def rangeOf? (lines : UnitLines) (r : LineRow × UInt64) : Option CodeRange := do
  let (row, stop) := r
  let file ← lines.files[row.file]?
  if row.line = 0 then none
  else
    let column := if row.column = 0 then none else some row.column
    some ⟨row.address, stop, ⟨file, row.line, row.line, column⟩⟩

/-- A unit, the stretches it covers, and its lines, unless they cannot be read. -/
structure Coverage where
  stretches : List Stretch
  lines : Option (Option UnitLines)

/-- A unit that declares nothing covers what its own sequences cover. -/
def coverage? (s : Sections) (sets : List RangeSet) (u : DebugUnit) : Option Coverage := do
  let program ← u.lineProgram? s
  let lines := match program with
    | none => some none
    | some p => (unitLines? s u p).map some
  if u.reader.header.kind ≠ .compilation then some ⟨[], lines⟩
  else
    let declared ← declaredRanges? s sets u
    let own := (lines.join.map fun l =>
      l.sequences.map fun q => (⟨q.start, q.stop⟩ : Stretch)).getD []
    some ⟨if declared.isEmpty then own else declared, lines⟩

/-- Lists stretch by stretch until one's lines cannot be read. -/
def listRanges : List (Stretch × Option (Option UnitLines)) → List CodeRange
  | [] => []
  | (_, none) :: _ => []
  | (_, some none) :: rest => listRanges rest
  | (stretch, some (some lines)) :: rest =>
    (rowsIn lines stretch).filterMap (rangeOf? lines) ++ listRanges rest

/-- The line table of all units. -/
def lineTable? (s : Sections) (units : List DebugUnit) : Option LineTable := do
  let sets ← Reading.from? s.aranges (rangeSets (s.aranges.length + 1))
  let covered ← units.mapM (coverage? s sets)
  let stretches := covered.flatMap fun c => c.stretches.map fun r => (r, c.lines)
  some (.ofRanges (listRanges (stretches.mergeSort fun a b => a.1.high ≤ b.1.high)))

end SourceDebugger.Dwarf
