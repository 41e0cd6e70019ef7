import SourceDebugger.Location
import SourceDebugger.Text.Blank
/-!
The commands a user types at a paused debugger. A line is cut into words; the first names the
command, and words after those a command needs are ignored except by commands that name a
breakpoint.
-/
namespace SourceDebugger

inductive InfoTopic where
  | breakpoints
  | modules
  | threads
  deriving DecidableEq, Repr

inductive Command where
  | breakAt (location : Location)
  | delete (id : Nat)
  | enable (id : Nat)
  | disable (id : Nat)
  | continue
  | step
  | next
  | finish
  | backtrace
  | args
  | locals
  | info (topic : InfoTopic)
  | help
  | quit
  deriving DecidableEq, Repr

namespace Command

/-- A breakpoint is named by one numeral and nothing after it. -/
def breakpointId : List String → Option Nat
  | [id] => (Text.readNumeral 10 (2 ^ 64) id).toOption
  | _ => none

def topic : List String → Option InfoTopic
  | [] => none
  | word :: _ =>
    if word ∈ ["breakpoints", "break", "b"] then some .breakpoints
    else if word ∈ ["modules", "m"] then some .modules
    else if word ∈ ["threads", "t"] then some .threads
    else none

def ofWords : List String → Option Command
  | [] => none
  | word :: rest =>
    match word with
    | "break" | "b" =>
      if rest.isEmpty then none else (Location.ofText? (" ".intercalate rest)).map .breakAt
    | "delete" | "d" => (breakpointId rest).map .delete
    | "enable" => (breakpointId rest).map .enable
    | "disable" => (breakpointId rest).map .disable
    | "continue" | "c" => some .continue
    | "step" | "s" => some .step
    | "next" | "n" => some .next
    | "finish" | "f" => some .finish
    | "backtrace" | "bt" => some .backtrace
    | "args" | "a" => some .args
    | "locals" | "l" => some .locals
    | "info" | "i" => (topic rest).map .info
    | "help" | "h" | "?" => some .help
    | "quit" | "q" | "exit" => some .quit
    | _ => none

/-- The command a line stands for, if it is one. -/
def ofLine? (line : String) : Option Command := ofWords (Text.words line)

end Command

end SourceDebugger
