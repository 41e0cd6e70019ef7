import SourceDebugger.Text.Blank
/-!
File names. Two notions of "the same file" are kept apart: paths are *equal* if they have the same
components, and a source file *matches* a name if one ends with the other at a directory boundary.
A path is always shown as it was given.
-/
namespace SourceDebugger

/-- Cuts a list at a separator; n separators give n + 1 pieces. -/
def splitAtSep (sep : Char → Bool) : List Char → List (List Char)
  | [] => [[]]
  | c :: rest =>
    if sep c then [] :: splitAtSep sep rest
    else match splitAtSep sep rest with
      | [] => [[c]]
      | piece :: more => (c :: piece) :: more

namespace Path

/-- A path taken apart: whether it starts at the root, and its parts. Empty parts and `.` count only
as a leading `.` of a relative path. -/
structure Components where
  rooted : Bool
  parts : List (List Char)
  deriving DecidableEq, Repr

def components (path : String) : Components :=
  let cs := path.toList
  let pieces := splitAtSep (· == '/') cs
  let rooted := cs.head? == some '/'
  let kept := pieces.filter fun p => p != [] && p != ['.']
  let leadingDot := !rooted && pieces.head? == some ['.']
  { rooted, parts := if leadingDot then ['.'] :: kept else kept }

/-- Paths are equal if their components are. -/
def same (a b : String) : Bool := components a == components b

/-- The text after the last separator of either kind. -/
def lastPart (path : String) : String :=
  let cs := path.toList.reverse.takeWhile fun c => c != '/' && c != '\\'
  String.ofList cs.reverse

/-- Appends a part to a path: a rooted part replaces what is there. -/
def push (base part : String) : String :=
  if part.startsWith "/" then part
  else if base.isEmpty || base.endsWith "/" then base ++ part
  else base ++ "/" ++ part

end Path

namespace SourceFile

/-- Both kinds of separator count as one. -/
def unify (name : String) : List Char :=
  name.toList.map fun c => if c = '\\' then '/' else c

/-- Compares two reversed names character by character from their last one; `some` is what is left
of the longer name once the other is used up. -/
def afterCommonEnd : List Char → List Char → Option (List Char)
  | [], rest => some rest
  | rest, [] => some rest
  | a :: as, b :: bs => if a = b then afterCommonEnd as bs else none

/-- Two names match if they are equal, or if the shorter is not empty and the other goes on with a
separator where it ends. -/
def matchNames (a b : String) : Bool :=
  let x := (unify a).reverse
  let y := (unify b).reverse
  match afterCommonEnd x y with
  | none => false
  | some [] => true
  | some (c :: _) => c == '/' && !x.isEmpty && !y.isEmpty

end SourceFile

end SourceDebugger
