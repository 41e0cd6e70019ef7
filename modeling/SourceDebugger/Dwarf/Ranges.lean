import SourceDebugger.Dwarf.Unit
/-!
The stretches of code that a unit covers. They come from a list of ranges, from the table of address
ranges of all units, or from the unit's first and last address.
-/
namespace SourceDebugger.Dwarf

/-- From `low` up to, not including, `high`. -/
structure Stretch where
  low : UInt64
  high : UInt64
  deriving DecidableEq, Repr, Inhabited

/-- An entry of a range list. -/
inductive RangeEntry where
  | base (a : UInt64)
  | offsets (low high : UInt64)
  | absolute (low high : UInt64)
  deriving Repr

/-- An address after another, in the width of addresses. -/
def Encoding.add (e : Encoding) (a b : UInt64) : UInt64 := (a + b) &&& e.maxAddress

/-- An entry of a list in the older format; two zeros end it. -/
def olderRange (e : Encoding) : Reading (Option RangeEntry) := do
  let low ← e.address
  let high ← e.address
  if low = 0 ∧ high = 0 then return none
  if low = e.maxAddress then return some (.base high)
  return some (.offsets low high)

/-- An entry of a list in the newer format. -/
def newerRange (s : Sections) (u : DebugUnit) : Reading (Option RangeEntry) := do
  let e := u.encoding
  let indexed := do Reading.ofOption (u.indexedAddress? s (← Reading.unsigned))
  let number := do return UInt64.ofNat (← Reading.unsigned)
  match ← Reading.number 1 with
  | 0 => return none
  | 1 => return some (.base (← indexed))
  | 2 => return some (.absolute (← indexed) (← indexed))
  | 3 => do
    let low ← indexed
    return some (.absolute low (e.add low (← number)))
  | 4 => return some (.offsets (← number) (← number))
  | 5 => return some (.base (← e.address))
  | 6 => return some (.absolute (← e.address) (← e.address))
  | 7 => do
    let low ← e.address
    return some (.absolute low (e.add low (← number)))
  | _ => Reading.malformed

/-- The base that marks code which was left out. -/
def Encoding.leftOut (e : Encoding) : UInt64 :=
  if e.version ≤ 4 then e.maxAddress - 1 else e.maxAddress

/-- Follows a list from a base on. Left-out code and ranges that end before they begin are passed
over. -/
def rangeList (e : Encoding) (entry : Reading (Option RangeEntry)) :
    Nat → UInt64 → Reading (List Stretch)
  | 0, _ => Reading.malformed
  | n + 1, base => do
    match ← entry with
    | none => return []
    | some (.base a) => rangeList e entry n a
    | some (.offsets low high) =>
      if base = e.leftOut then rangeList e entry n base
      else
        let low := e.add base low
        let high := e.add base high
        return keep low high ++ (← rangeList e entry n base)
    | some (.absolute low high) => return keep low high ++ (← rangeList e entry n base)
where
  keep (low high : UInt64) : List Stretch :=
    if low < high ∧ low ≠ e.leftOut then [⟨low, high⟩] else []

namespace DebugUnit

/-- The unit's first address, from which the offsets of its lists are counted. -/
def low? (s : Sections) (u : DebugUnit) : Option UInt64 :=
  match u.rootValue? .lowPc with
  | none => some 0
  | some v => (u.address? s v).map (·.getD 0)

/-- Where a value says that the unit's range list is. -/
def rangesOffset? (s : Sections) (u : DebugUnit) : AttributeValue → Option (Option Nat)
  | .sectionOffset n => some (some n)
  | .rangesIndex n => do
    let entry ← s.rnglists.after? (u.rangeListsBase + 4 * n)
    some (some (u.rangeListsBase + (← Reading.from? entry (Reading.number 4))))
  | _ => some none

def listedRanges? (s : Sections) (u : DebugUnit) (offset : Nat) : Option (List Stretch) := do
  let base ← u.low? s
  if u.encoding.version ≤ 4 then
    let bytes ← s.ranges.after? offset
    Reading.from? bytes (rangeList u.encoding (olderRange u.encoding) (bytes.length + 1) base)
  else
    let bytes ← s.rnglists.after? offset
    Reading.from? bytes (rangeList u.encoding (newerRange s u) (bytes.length + 1) base)

/-- From the first address up to the last, which may be given as a size. -/
def extent? (s : Sections) (u : DebugUnit) : Option (List Stretch) := do
  let low ← addressOf .lowPc
  let high ← addressOf .highPc
  let size := (u.rootValue? .highPc).bind (·.natural?)
  some <| match low, high, size with
    | some low, some high, _ => if low < high then [⟨low, high⟩] else []
    | some low, none, some size =>
      let high := low + UInt64.ofNat size
      if low < high then [⟨low, high⟩] else []
    | _, _, _ => []
where
  addressOf (key : AttributeName) : Option (Option UInt64) :=
    match u.rootValue? key with
    | none => some none
    | some v => u.address? s v

end DebugUnit

/-- A set of the table of address ranges: the offset of its unit, and its stretches. -/
structure RangeSet where
  unitOffset : Nat
  stretches : List Stretch
  deriving Repr, Inhabited

/-- Pairs of an address and a length, as long as there are any. Empty stretches and left-out code
are passed over. -/
def rangePairs (e : Encoding) : Nat → Reading (List Stretch)
  | 0 => return []
  | n + 1 => do
    if (← get).rest.length < 2 * e.addressSize then return []
    let low ← e.address
    let size ← e.address
    let more ← rangePairs e n
    if size = 0 ∨ low = e.maxAddress then return more
    return ⟨low, e.add low size⟩ :: more

/-- The first pair is at a multiple of a pair's size. -/
def rangeSet : Reading RangeSet := do
  let length ← partLength
  let bytes ← Reading.bytes length
  Reading.ofOption <| Reading.from? bytes do
    let version ← Reading.number 2
    Reading.require (version == 2 || version == 3)
    let unitOffset ← Reading.number 4
    let size ← addressSize
    let segmentSize ← Reading.number 1
    Reading.require (segmentSize == 0)
    let headerSize := 12
    let pairSize := 2 * size
    Reading.skip ((pairSize - headerSize % pairSize) % pairSize)
    return ⟨unitOffset, ← rangePairs ⟨version, size⟩ bytes.length⟩

def rangeSets : Nat → Reading (List RangeSet)
  | 0 => Reading.malformed
  | n + 1 => do
    if ← Reading.atEnd then return []
    return (← rangeSet) :: (← rangeSets n)

/-- The stretches that a unit declares. A list of its own comes first, then the table, then the
extent. -/
def declaredRanges? (s : Sections) (sets : List RangeSet) (u : DebugUnit) :
    Option (List Stretch) := do
  let offset ← match u.rootValue? .ranges with
    | none => some none
    | some v => u.rangesOffset? s v
  match offset with
  | some offset => u.listedRanges? s offset
  | none =>
    let extent ← u.extent? s
    let tabled := (sets.filter (·.unitOffset = u.reader.header.offset)).flatMap (·.stretches)
    some (if tabled.isEmpty then extent else tabled)

end SourceDebugger.Dwarf
