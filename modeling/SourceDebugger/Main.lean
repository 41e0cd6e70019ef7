import SourceDebugger.Console
import SourceDebugger.Process.Symbols
import SourceDebugger.Process.Traced
/-!
The debugger as a program. It reads the files that its command line names and the lines that are
typed, and prints; all that is decided is decided by `Terminal`. No program of the system's own is
started: the debuggee runs inside the debugger.
-/
namespace SourceDebugger.Main

def display (p : Printed) : IO Unit :=
  match p with
  | .output text => do
    IO.print text
    (← IO.getStdout).flush
  | .diagnostic text => IO.eprint text

/-- Carries out something at a terminal, shows what it has printed and clears the screen. -/
def perform {α : Type} (act : Terminal.Act Traced α) (t : Terminal Traced) :
    IO (Except DebuggerError α × Terminal Traced) := do
  let (r, t) := act.run.run t
  t.watcher.pieces.reverse.forM display
  return (r, { t with watcher := .empty })

def fail (e : DebuggerError) : IO UInt32 := do
  IO.eprintln ("Error: " ++ e.message)
  return 1

/-- Answers lines until the user or the input comes to an end. -/
partial def converse (t : Terminal Traced) : IO UInt32 := do
  display (.output "(ndbg) ")
  let text ← (← IO.getStdin).getLine
  match ← perform (Terminal.answer (if text.isEmpty then .endOfInput else .line text)) t with
  | (.ok true, t) => converse t
  | (.ok false, t) =>
    match ← perform Terminal.finish t with
    | (.ok (), _) => return 0
    | (.error e, _) => fail e
  | (.error e, _) => fail e

/-- The files that a command line names, as far as they can be read, and its directories. -/
def readFiles (home : String) (r : CommandLine.Request) : IO FileTree :=
  let place := fun path => FileTree.render (FileTree.placeOf (FileTree.parts home) path)
  let directories := (home :: r.cwd.toList).foldl (fun t d => t.add (place d) .directory) .empty
  r.paths.foldlM (fun files path => do
    try return files.add (place path) (.file (← IO.FS.readBinFile (place path)))
    catch _ => return files) directories

end SourceDebugger.Main

open SourceDebugger in
def main (args : List String) : IO UInt32 := do
  Terminal.banner.forM fun line => IO.println line
  match CommandLine.read args with
  | .error refusal =>
    if refusal.isQuestion then
      CommandLine.usage.forM fun line => IO.println line
      return 0
    else
      IO.eprintln ("error: " ++ refusal.name)
      CommandLine.usage.forM fun line => IO.eprintln line
      return 2
  | .ok request =>
    let home := (← IO.getEnv "PWD").getD "/"
    let files ← Main.readFiles home request
    let launch := Traced.launch files (FileTree.parts home)
    let t : Terminal Traced := .new ⟨request.config, launch, files.symbolsOf⟩ .empty
    match ← Main.perform (Terminal.begin request home) t with
    | (.ok true, t) => Main.converse t
    | (.ok false, _) => return 0
    | (.error e, _) => Main.fail e
