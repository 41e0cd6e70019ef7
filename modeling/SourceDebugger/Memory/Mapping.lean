import SourceDebugger.Path
import SourceDebugger.Text.Numeral
/-!
The memory map of a process as the kernel lists it, one mapping a line:
`start-end perms offset device inode path`. Mappings of one file together are the file's image.
-/
namespace SourceDebugger

structure Mapping where
  start : UInt64
  stop : UInt64
  /-- Where in the file the mapping begins. -/
  offset : UInt64
  executable : Bool
  path : Option String
  deriving DecidableEq, Repr, Inhabited

inductive MappingFault where
  | start (why : Text.NumeralFault)
  | stop (why : Text.NumeralFault)
  | offset (why : Text.NumeralFault)
  deriving DecidableEq, Repr

def MappingFault.message : MappingFault → String
  | .start why => "Failed to parse start address: " ++ why.message
  | .stop why => "Failed to parse end address: " ++ why.message
  | .offset why => "Failed to parse segment offset: " ++ why.message

namespace Mapping

/-- What a word holds before and after its first hyphen. -/
def atHyphen (s : String) : Option (String × String) :=
  match s.toList.dropWhile (· ≠ '-') with
  | [] => none
  | _ :: after => some (String.ofList (s.toList.takeWhile (· ≠ '-')), String.ofList after)

/-- Reads one line; a line with too few fields, or no range in the first, is skipped. The path is
all that follows the fifth field, and counts only if it is absolute. -/
def ofLine? (line : String) : Except MappingFault (Option Mapping) :=
  match Text.words line with
  | range :: perms :: offset :: _ :: _ :: path =>
    match atHyphen range with
    | none => .ok none
    | some (low, high) => do
      let start ← (Text.readWord 16 low).mapError .start
      let stop ← (Text.readWord 16 high).mapError .stop
      let offset ← (Text.readWord 16 offset).mapError .offset
      let path := " ".intercalate path
      .ok (some { start, stop, offset
                  executable := perms.toList[2]? == some 'x'
                  path := if path.startsWith "/" then some path else none })
  | _ => .ok none

def ofText (text : String) : Except MappingFault (List Mapping) := do
  let rows ← (splitAtSep (· == '\n') text.toList).mapM fun line => ofLine? (String.ofList line)
  .ok (rows.filterMap id)

end Mapping

/-- All of one file that is mapped, from its first byte on. -/
structure Image where
  path : String
  base : UInt64
  size : UInt64
  deriving DecidableEq, Repr, Inhabited

namespace Image

/-- An image reaches to the end of its last mapping. -/
def extend (i : Image) (m : Mapping) : Image :=
  let reach := if m.stop < i.base then 0 else m.stop - i.base
  { i with size := if i.size < reach then reach else i.size }

/-- Adds a mapping to the image of its path; an image begins with a mapping of the file's start. -/
def place (images : List Image) (m : Mapping) : List Image :=
  match m.path with
  | none => images
  | some path =>
    match images.findIdx? fun i => Path.same i.path path with
    | some index => images.modify index (·.extend m)
    | none => if m.offset = 0 then images ++ [⟨path, m.start, m.stop - m.start⟩] else images

def ofMappings (maps : List Mapping) : List Image := maps.foldl place []

end Image

end SourceDebugger
