import SourceDebugger.Dwarf.Unit
/-!
The entries of a unit as a tree. The children of an entry follow it, up to a mark or the end of the
unit. Entries whose children nobody wants are passed over, by way of the place that they name as
that of their next sibling if they do.
-/
namespace SourceDebugger.Dwarf

inductive Tree where
  | node (entry : Entry) (children : List Tree)
  deriving Inhabited

/-- The place of an entry's next sibling, if the entry names one that lies behind itself. -/
def UnitReader.sibling? (u : UnitReader) (e : Entry) : Option Cursor :=
  match e.find? .sibling with
  | some (.entry offset) => if e.offset < offset then u.cursorAt? offset else none
  | _ => none

/-- Passes over the children of the entry just read. -/
def UnitReader.passChildren (u : UnitReader) : Nat → Entry → Reading Unit
  | 0, _ => Reading.malformed
  | n + 1, e =>
    if !e.hasChildren then pure ()
    else match u.sibling? e with
      | some c => set c
      | none => passOthers n
where
  passOthers : Nat → Reading Unit
    | 0 => Reading.malformed
    | n + 1 => do
      if ← Reading.atEnd then return
      match ← u.entry with
      | none => return
      | some e =>
        u.passChildren n e
        passOthers n

/-- Reads siblings up to the mark behind them. Only where `enter` says are their children read
too. -/
def UnitReader.siblings (u : UnitReader) (enter : Tag → Bool) : Nat → Reading (List Tree)
  | 0 => Reading.malformed
  | n + 1 => do
    if ← Reading.atEnd then return []
    match ← u.entry with
    | none => return []
    | some e =>
      let children ← if !e.hasChildren then pure []
        else if enter e.tag then u.siblings enter n
        else do
          u.passChildren n e
          pure []
      return .node e children :: (← u.siblings enter n)

/-- The tree below an entry. Every entry takes at least one byte, so there are no more readings than
bytes of the unit. -/
def UnitReader.treeAt? (u : UnitReader) (offset : Nat) (enter : Tag → Bool) : Option Tree := do
  let (e, c) ← u.entryAt? offset
  if !e.hasChildren then some (.node e [])
  else
    let (children, _) ← (u.siblings enter (u.header.bytes.length + 2)).run c
    some (.node e children)

end SourceDebugger.Dwarf
