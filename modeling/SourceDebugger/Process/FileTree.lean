import SourceDebugger.Path
import SourceDebugger.Process.Errno
/-!
The files that programs can be started from and can open. A path is followed part by part, so every
part but the last must be a directory. There are no links.
-/
namespace SourceDebugger

inductive FileNode where
  | file (contents : ByteArray)
  | directory
  deriving Inhabited

/-- The nodes by the parts of their paths. Directories on the way to a node need not be listed. -/
structure FileTree where
  nodes : List (List String × FileNode)
  deriving Inhabited

namespace FileTree

/-- The parts of a path between slashes. -/
def parts (path : String) : List String :=
  ((splitAtSep (· == '/') path.toList).map String.ofList).filter (· ≠ "")

def render (place : List String) : String := "/" ++ "/".intercalate place

/-- The root directory alone. -/
def empty : FileTree := ⟨[]⟩

def add (t : FileTree) (path : String) (node : FileNode) : FileTree :=
  ⟨(parts path, node) :: t.nodes⟩

def node? (t : FileTree) (place : List String) : Option FileNode :=
  match t.nodes.lookup place with
  | some n => some n
  | none => if place.isEmpty || t.nodes.any (place.isPrefixOf ·.1) then some .directory else none

/-- The place next to, above or at a place that a part of a path leads to. -/
def enter (place : List String) (part : String) : List String :=
  if part = "." then place else if part = ".." then place.dropLast else place ++ [part]

/-- The place a path leads to from a directory, if there are directories all the way. -/
def placeOf (directory : List String) (path : String) : List String :=
  (parts path).foldl enter (if path.startsWith "/" then [] else directory)

/-- Follows the parts of a path from a directory. -/
def walk (t : FileTree) (place : List String) : List String → Except Errno (List String × FileNode)
  | [] =>
    match t.node? place with
    | some n => .ok (place, n)
    | none => .error .notFound
  | part :: rest =>
    match t.node? place with
    | none => .error .notFound
    | some (.file _) => .error .notDirectory
    | some .directory => walk t (enter place part) rest

/-- Finds what a path leads to. A slash at its end asks for a directory. -/
def resolve (t : FileTree) (directory : List String) (path : String) :
    Except Errno (List String × FileNode) :=
  if path.isEmpty || path.contains '\x00' then .error .notFound
  else
    let start := if path.startsWith "/" then [] else directory
    walk t start (parts path ++ if path.endsWith "/" then ["."] else [])

def isFile (t : FileTree) (directory : List String) (path : String) : Bool :=
  match t.resolve directory path with
  | .ok (_, .file _) => true
  | _ => false

end FileTree

end SourceDebugger
