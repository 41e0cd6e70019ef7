import SourceDebugger.Command
import SourceDebugger.CommandLine
import SourceDebugger.Debugger
import SourceDebugger.Text.Blank
/-!
The debugger at a terminal: what each typed command prints. Output of the debuggee appears on the
same screen when it arrives.
-/
namespace SourceDebugger

/-- A piece of text that was printed. -/
inductive Printed where
  | output (text : String)
  | diagnostic (text : String)
  deriving DecidableEq, Repr

/-- What has been printed, the last piece first. -/
structure Screen where
  pieces : List Printed
  deriving DecidableEq, Repr

namespace Screen

def empty : Screen := ⟨[]⟩

def print (s : Screen) (p : Printed) : Screen := ⟨p :: s.pieces⟩

end Screen

/-- A debugger whose events are shown on a screen. -/
abbrev Terminal (δ : Type) := Debugger δ Screen

namespace Terminal

variable {δ : Type}

/-- What is done at a terminal. -/
abbrev Act (δ α : Type) := Debugger.Call δ Screen α

def print (p : Printed) (t : Terminal δ) : Terminal δ := { t with watcher := t.watcher.print p }

/-- Lines of the debuggee's output are printed as they are. -/
def watch : Watch δ Screen
  | .log text, t => Terminal.print (.output text) t
  | _, t => t

def say (line : String) : Act δ Unit := modify (Terminal.print (.output (line ++ "\n")))

def complain (line : String) : Act δ Unit := modify (Terminal.print (.diagnostic (line ++ "\n")))

def call {α : Type} (request : Session.Request δ α) : Act δ α := Debugger.call watch request

def query {α : Type} (f : Session δ → α) : Act δ α := Debugger.query watch f

def describeFrame (f : Frame) : String :=
  let place := match f.segment with
    | some segment => segment.render
    | none => Text.hexMarked f.pc.toNat
  "#" ++ toString f.index ++ " " ++ f.function ++ " at " ++ place

def sayVariables (title : String) : List Variable → Act δ Unit
  | [] => say ("No " ++ title)
  | vs => vs.forM fun v => say ("  " ++ v.name ++ ": " ++ v.typeName ++ " = " ++ v.value.render)

def describeBreakpoint (b : Breakpoint) : String :=
  let place := match b.segment?, b.address? with
    | some segment, some a => segment.render ++ " (" ++ Text.hexMarked a.toNat ++ ")"
    | none, some a => Text.hexMarked a.toNat
    | _, none => "pending"
  "  " ++ toString b.id ++ ". " ++ b.location.render ++ " ["
    ++ (if b.enabled then "enabled" else "disabled") ++ "] " ++ place
    ++ " hits: " ++ toString b.hits

def describeModule (m : LoadedModule) : String :=
  "  0x" ++ Text.padLeft '0' 16 (Text.hex m.base.toNat) ++ " "
    ++ Text.padLeft ' ' 10 (toString m.size.toNat) ++ " " ++ m.path
    ++ (if m.symbols.isSome then "" else " (no symbols)")

def describeThread (t : Session.ThreadView) : String :=
  (if t.isCurrent then "*" else " ") ++ " Thread " ++ toString t.id

def info : InfoTopic → Act δ Unit
  | .breakpoints => do
    let bs ← query (·.breakpoints.registered)
    if bs.isEmpty then say "No breakpoints"
    bs.forM fun b => say (describeBreakpoint b)
  | .modules => do (← query (·.roster.modules)).forM fun m => say (describeModule m)
  | .threads => do (← query Session.threads).forM fun t => say (describeThread t)

def helpLines : List String :=
  ["Available commands:"
  , ""
  , "  help           - Show this help message"
  , "  quit/exit/q    - Exit the debugger"
  , ""
  , "Breakpoints:"
  , "  break <loc>    - Set breakpoint at file:line or address"
  , "  delete <id>    - Delete a breakpoint"
  , "  enable <id>    - Enable a breakpoint"
  , "  disable <id>   - Disable a breakpoint"
  , ""
  , "Execution:"
  , "  continue (c)   - Continue execution"
  , "  step (s)       - Step into the next line"
  , "  next (n)       - Step over the next line"
  , "  finish (f)     - Run until the current function returns"
  , ""
  , "Inspection:"
  , "  backtrace (bt) - Show the call stack"
  , "  args (a)       - Show arguments of the current function"
  , "  locals (l)     - Show local variables of the current function"
  , "  info breakpoints|modules|threads"
  , ""
  , "Examples:"
  , "  break src/main.rs:42"
  , "  break 0x401136"]

variable [Debuggee δ]

def breakAt (location : Location) : Act δ Unit := do
  let id ← call (Session.addBreakpoint location)
  let address := ((← get).session.breakpoints.find? id).bind (·.address?)
  say <| "Breakpoint " ++ toString id ++ match address with
    | some a => " set at " ++ location.render ++ " (" ++ Text.hexMarked a.toNat ++ ")"
    | none => " pending at " ++ location.render ++ " (no loaded code yet)"

/-- A breakpoint wanted before the program starts is written as in the command `break`. -/
def breakBeforeStart (text : String) : Act δ Unit := do
  match Command.ofLine? ("break " ++ text) with
  | some (.breakAt location) => breakAt location
  | _ => complain ("Invalid breakpoint location: " ++ text)

/-- Waits until the debuggee stops, and says where. Whether it is still alive is the result. -/
def report : Act δ Bool := fun t =>
  match Debugger.waitForPause watch t with
  | (.ok (), t) => stopped t
  | (.error (.processExited code), t) => ended code t
  | (.error e, t) => (.error e, t)
where
  stopped : Act δ Bool := do
    let reason ← (← get).pausedReason
    say ""
    say ("Stopped (" ++ reason.name ++ ")")
    sayPlace
    return true
  sayPlace : Act δ Unit := fun t =>
    match (call Session.currentFunction : Act δ Frame) t with
    | (.ok frame, t) => say ("  " ++ describeFrame frame) t
    | (.error e, t) => say ("  (location unavailable: " ++ e.message ++ ")") t
  ended (code : Option Int) : Act δ Bool := do
    say ""
    say <| match code with
      | some code => "Process exited with code " ++ toString code
      | none => "Process exited"
    return false

/-- Does something with a breakpoint that is registered. -/
def withBreakpoint (id : BreakpointId) (act : Act δ Unit) : Act δ Unit := do
  match ← query (·.breakpoints.registered? id) with
  | some _ => act
  | none => say ("No breakpoint " ++ toString id)

def switch (id : BreakpointId) (enabled : Bool) : Act δ Unit :=
  withBreakpoint id do
    Debugger.setEnabled id enabled
    say ("Breakpoint " ++ toString id ++ (if enabled then " enabled" else " disabled"))

/-- Lets the debuggee go on and waits for it. -/
def proceed (request : Session.Request δ Unit) : Act δ Bool := do
  call request
  report

/-- Carries out a command; whether the session goes on is the result. -/
def perform : Command → Act δ Bool
  | .help => do
    helpLines.forM fun line => say line
    return true
  | .quit => do
    say "Goodbye!"
    return false
  | .breakAt location => do
    breakAt location
    return true
  | .delete id => do
    withBreakpoint id do
      call (Session.removeBreakpoint id)
      say ("Deleted breakpoint " ++ toString id)
    return true
  | .enable id => do
    switch id true
    return true
  | .disable id => do
    switch id false
    return true
  | .continue => do
    say "Continuing execution..."
    proceed Session.continueExecution
  | .step => proceed (Session.step .into)
  | .next => proceed (Session.step .over)
  | .finish => proceed (Session.step .out)
  | .backtrace => do
    let thread ← call Session.currentThread
    (← call (Session.callstack thread.id)).forM fun f => say ("  " ++ describeFrame f)
    return true
  | .args => do
    let frame ← call Session.currentFunction
    sayVariables "arguments" (← call (Session.arguments frame))
    return true
  | .locals => do
    let frame ← call Session.currentFunction
    sayVariables "locals" (← call (Session.locals frame))
    return true
  | .info topic => do
    info topic
    return true

/-- Carries out a typed line. -/
def obey (line : String) : Act δ Bool := do
  match Command.ofLine? line with
  | some command => perform command
  | none =>
    say ("Unknown command: " ++ line)
    say "Type 'help' for available commands."
    return true

/-- Starts a program and waits for its first stop. -/
def launch (request : LaunchRequest) : Act δ Bool := proceed (Session.start request)

/-- What is shown before anything else. -/
def banner : List String := ["ndbg - Native Process Debugger", "Version 0.1.0", ""]

/-- Prepares what the command line asks for; whether there is something to talk about is the
result. A program runs in the debugger's directory unless it is told otherwise. -/
def begin (r : CommandLine.Request) (home : String) : Act δ Bool := do
  r.breaks.forM breakBeforeStart
  say ("Starting " ++ r.binary)
  say ""
  if ← launch ⟨r.binary, r.cwd.getD home, r.args⟩ then
    say "Type 'help' for available commands, 'quit' to exit."
    say ""
    return true
  else return false

/-- What a user does at the prompt. -/
inductive Keyed where
  | line (text : String)
  | endOfInput
  | interrupt
  | resize
  deriving DecidableEq, Repr

/-- Answers one line; a command that fails does not end the conversation. -/
def answerLine (text : String) : Act δ Bool := fun t =>
  let line := Text.trim text
  if line.isEmpty then (.ok true, t)
  else match (obey line : Act δ Bool) t with
    | (.error e, t) => (do complain ("Error: " ++ e.message); return true : Act δ Bool) t
    | done => done

/-- Answers what a user does; whether the conversation goes on is the result. -/
def answer : Keyed → Act δ Bool
  | .line text => answerLine text
  | .endOfInput => do
    say "CTRL-D"
    return false
  | .interrupt => do
    say "CTRL-C"
    return false
  | .resize => do
    complain "Error: WindowResized"
    return false

/-- A program that is still alive does not outlive the conversation. -/
def finish : Act δ Unit := do
  match (← get).published.state with
  | .running | .paused .. => call Session.terminate
  | _ => return ()

/-- A whole conversation. -/
def converse : List Keyed → Act δ Unit
  | [] => do
    let _ ← answer .endOfInput
    finish
  | key :: rest => do
    if ← answer key then converse rest else finish

/-- All that happens at a terminal, from the command line on. -/
def run (r : CommandLine.Request) (home : String) (keys : List Keyed) : Act δ Unit := do
  if ← begin r home then converse keys

end Terminal

end SourceDebugger
