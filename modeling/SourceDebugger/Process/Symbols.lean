import SourceDebugger.Process.FileTree
import SourceDebugger.Symbols.ObjectFile
/-!
The symbols of the files that processes are made of.
-/
namespace SourceDebugger.FileTree

/-- What is known of the code in a file; nothing, if the file cannot be read or says nothing. -/
def symbolsOf (t : FileTree) (path : String) : Option ModuleSymbols :=
  match t.resolve [] path with
  | .ok (_, .file contents) => do
    let file ← ObjectFile.ofBytes? contents.toList
    (← file.module?)
  | _ => none

end SourceDebugger.FileTree
