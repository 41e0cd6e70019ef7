import SourceDebugger.Config
import SourceDebugger.Path
import SourceDebugger.Text.Numeral
/-!
The arguments the debugger is started with:
`[settings] run [settings] BINARY [ARGS…]`.

Arguments are read from left to right. An option that takes a value keeps it pending until the next
option or positional begins, and only then is the value checked; so a fault in the shape of the
line is reported before a fault in a value that stands further left. From the first argument of
the program on, everything belongs to the program.
-/
namespace SourceDebugger.CommandLine

/-- Why a command line is not accepted; asking for help counts as a reason. -/
inductive Refusal where
  | displayHelp
  | displayVersion
  | displayHelpForMissing
  | missingSubcommand
  | missingRequired
  | invalidSubcommand
  | unknownArgument
  | conflict
  | tooManyValues
  | invalidValue
  | valueValidation
  deriving DecidableEq, Repr

/-- One word for the reason, for other programs to act on. -/
def Refusal.name : Refusal → String
  | .displayHelp => "DisplayHelp"
  | .displayVersion => "DisplayVersion"
  | .displayHelpForMissing => "DisplayHelpOnMissingArgumentOrSubcommand"
  | .missingSubcommand => "MissingSubcommand"
  | .missingRequired => "MissingRequiredArgument"
  | .invalidSubcommand => "InvalidSubcommand"
  | .unknownArgument => "UnknownArgument"
  | .conflict => "ArgumentConflict"
  | .tooManyValues => "TooManyValues"
  | .invalidValue => "InvalidValue"
  | .valueValidation => "ValueValidation"

/-- Whether the reason is a question rather than a mistake. -/
def Refusal.isQuestion : Refusal → Bool
  | .displayHelp | .displayVersion => true
  | _ => false

/-- How the debugger is started. -/
def usage : List String :=
  ["Usage: ndbg [OPTIONS] run [OPTIONS] <BINARY> [ARGS]..."
  , ""
  , "Options:"
  , "      --manual-marshal         Run debugger calls on the REPL thread"
  , "      --poll-interval-ms <MS>  How long to wait for a native event per iteration"
  , "      --max-frames <N>         Maximum number of frames in a backtrace"
  , "      --cwd <DIR>              Working directory of the debuggee"
  , "  -b, --break <LOCATION>       Breakpoints to set before the program starts"
  , "  -h, --help                   Print help"
  , "  -V, --version                Print version"]

/-- The words an option may be given by. -/
inductive OptionName where
  | manualMarshal
  | pollInterval
  | maxFrames
  | cwd
  | breakAt
  | help
  | version
  deriving DecidableEq, Repr

/-- Options may stand before the subcommand or after it. -/
inductive Level where
  | outer
  | run
  deriving DecidableEq, Repr

namespace OptionName

def takesValue : OptionName → Bool
  | pollInterval | maxFrames | cwd | breakAt => true
  | manualMarshal | help | version => false

def ofLong (level : Level) (name : String) : Option OptionName :=
  match name, level with
  | "manual-marshal", _ => some manualMarshal
  | "poll-interval-ms", _ => some pollInterval
  | "max-frames", _ => some maxFrames
  | "help", _ => some help
  | "version", .outer => some version
  | "cwd", .run => some cwd
  | "break", .run => some breakAt
  | _, _ => none

def ofShort (level : Level) (c : Char) : Option OptionName :=
  match c, level with
  | 'h', _ => some help
  | 'V', .outer => some version
  | 'b', .run => some breakAt
  | _, _ => none

end OptionName

/-- What one level of the line has set. -/
structure Given where
  manual : Bool
  pollMillis : Option Nat
  maxFrames : Option Nat
  cwd : Option String
  breaks : List String
  binary : Option String
  args : List String
  deriving DecidableEq, Repr

def Given.empty : Given := ⟨false, none, none, none, [], none, []⟩

/-- Values that have been read but not yet checked. -/
inductive Pending where
  | nothing
  | option (o : OptionName) (values : List String)
  | binary (value : String)
  | args (values : List String)
  deriving DecidableEq, Repr

def numeral (value : String) : Except Refusal Nat :=
  match Text.readNumeral 10 (2 ^ 64) value with
  | .ok n => .ok n
  | .error _ => .error .valueValidation

/-- A file name must not be empty. -/
def fileName (value : String) : Except Refusal String :=
  if value.isEmpty then .error .invalidValue else .ok value

/-- Records one option; all but `--break` may be given once. -/
def Given.set (g : Given) (o : OptionName) (value : String) : Except Refusal Given :=
  match o with
  | .manualMarshal => if g.manual then .error .conflict else .ok { g with manual := true }
  | .pollInterval =>
    if g.pollMillis.isSome then .error .conflict
    else do .ok { g with pollMillis := some (← numeral value) }
  | .maxFrames =>
    if g.maxFrames.isSome then .error .conflict
    else do .ok { g with maxFrames := some (← numeral value) }
  | .cwd =>
    if g.cwd.isSome then .error .conflict
    else do .ok { g with cwd := some (← fileName value) }
  | .breakAt => .ok { g with breaks := g.breaks ++ [value] }
  | .help => .error .displayHelp
  | .version => .error .displayVersion

/-- Checks what is pending. -/
def Given.settle (g : Given) : Pending → Except Refusal Given
  | .nothing => .ok g
  | .option _ [] => .error .invalidValue
  | .option o (value :: _) => g.set o value
  | .binary value => do .ok { g with binary := some (← fileName value) }
  | .args values => .ok { g with args := g.args ++ values }

/-- How far one level has been read. -/
structure Reader where
  level : Level
  given : Given
  pending : Pending
  /-- Whether the option that is pending still waits for its value. -/
  awaiting : Bool
  /-- Whether everything that follows is positional. -/
  trailing : Bool
  deriving DecidableEq, Repr

namespace Reader

def start (level : Level) : Reader := ⟨level, .empty, .nothing, false, false⟩

def settled (r : Reader) : Except Refusal Reader := do
  .ok { r with given := ← r.given.settle r.pending, pending := .nothing, awaiting := false }

/-- The next positional is one of the program's arguments. -/
def expectsArgs (r : Reader) : Bool :=
  r.level = .run && (r.given.binary.isSome || match r.pending with
    | .binary _ | .args _ => true
    | _ => false)

/-- Begins an option: one without a value takes effect at once, one with an attached value too, and
any other waits for the next word. -/
def option (r : Reader) (o : OptionName) (attached : Option String) : Except Refusal Reader :=
  match o.takesValue, attached with
  | false, _ => do
    let r ← r.settled
    .ok { r with given := ← r.given.set o "" }
  | true, some value => do
    let r ← r.settled
    .ok { r with given := ← r.given.set o value }
  | true, none => do
    let r ← r.settled
    .ok { r with pending := .option o [], awaiting := true }

/-- The outcome of looking at a word that starts with a hyphen. -/
inductive Dashed where
  | taken (r : Reader)
  | plain
  deriving DecidableEq, Repr

def long (r : Reader) (text : List Char) : Except Refusal Dashed :=
  let name := String.ofList (text.takeWhile (· ≠ '='))
  let attached := match text.dropWhile (· ≠ '=') with
    | [] => none
    | _ :: value => some (String.ofList value)
  if name.isEmpty then .error .unknownArgument
  else match OptionName.ofLong r.level name with
    | some o =>
      if !o.takesValue && attached.isSome then .error .tooManyValues
      else do .ok (.taken (← r.option o attached))
    | none => if r.expectsArgs then .ok .plain else .error .unknownArgument

/-- Reads a cluster of one-letter options; what follows a letter that takes a value is the value. -/
def cluster (r : Reader) : List Char → Except Refusal Reader
  | [] => .ok r
  | c :: rest =>
    match OptionName.ofShort r.level c with
    | none => .error .unknownArgument
    | some o =>
      if o.takesValue then
        match rest with
        | [] => r.option o none
        | '=' :: value => r.option o (some (String.ofList value))
        | value => r.option o (some (String.ofList value))
      else do (← r.option o none).cluster rest

def short (r : Reader) (letters : List Char) : Except Refusal Dashed :=
  if r.expectsArgs && letters.any fun c => (OptionName.ofShort r.level c).isNone then .ok .plain
  else do .ok (.taken (← r.cluster letters))

/-- A word that is no option. -/
def positional (r : Reader) (word : String) : Except Refusal Reader :=
  match r.level with
  | .outer =>
    if r.trailing && (word = "run" || word = "help") then .error .unknownArgument
    else .error .invalidSubcommand
  | .run =>
    if r.expectsArgs then
      match r.pending with
      | .args values => .ok { r with pending := .args (values ++ [word]), trailing := true }
      | _ => do .ok { ← r.settled with pending := .args [word], trailing := true }
    else do .ok { ← r.settled with pending := .binary word }

/-- Reads one word. -/
def word (r : Reader) (w : String) : Except Refusal Reader :=
  if r.trailing then r.positional w
  else do
    let dashed ← match w.toList with
      | ['-', '-'] => .ok (.taken { r with trailing := true })
      | '-' :: '-' :: text => r.long text
      | '-' :: c :: letters => r.short (c :: letters)
      | _ => .ok .plain
    match dashed, r.pending with
    | .taken r, _ => .ok r
    | .plain, .option o values =>
      if r.awaiting then .ok { r with pending := .option o (values ++ [w]), awaiting := false }
      else r.positional w
    | .plain, _ => r.positional w

def finish (r : Reader) (words : List String) : Except Refusal Given := do
  let r ← words.foldlM word r
  .ok (← r.settled).given

end Reader

/-- What a complete command line asks for. -/
structure Request where
  config : Config
  binary : String
  cwd : Option String
  breaks : List String
  args : List String
  deriving DecidableEq, Repr

/-- The paths a program that is started may be made of: its own, and whatever it is told of. -/
def Request.paths (r : Request) : List String := r.binary :: r.args

/-- A setting given after the subcommand wins over one before it. -/
def combine (outer inner : Given) (binary : String) : Request :=
  let millis := (inner.pollMillis.or outer.pollMillis).getD Config.standard.pollMillis
  let frames := (inner.maxFrames.or outer.maxFrames).getD Config.standard.maxFrames
  { config := { Config.standard.withMaxFrames frames with
      mode := if inner.manual || outer.manual then .manual else .automatic
      pollMillis := max millis 1 }
    binary, cwd := inner.cwd, breaks := inner.breaks, args := inner.args }

/-- Help can be asked for a subcommand by name. -/
def helpFor : List String → Refusal
  | [] => .displayHelp
  | "help" :: rest => helpFor rest
  | ["run"] => .displayHelp
  | _ => .invalidSubcommand

/-- Reads the words before the subcommand. -/
def readOuter (r : Reader) : List String → Except Refusal Request
  | [] => do
    let nothingGiven := r.given == .empty && r.pending == .nothing
    let _ ← r.settled
    .error (if nothingGiven then .displayHelpForMissing else .missingSubcommand)
  | w :: rest =>
    if !r.trailing && !r.awaiting && w = "run" then do
      let inner ← (Reader.start .run).finish rest
      match inner.binary with
      | none => .error .missingRequired
      | some binary => .ok (combine (← r.settled).given inner binary)
    else if !r.trailing && !r.awaiting && w = "help" then .error (helpFor rest)
    else do readOuter (← r.word w) rest

def read (args : List String) : Except Refusal Request := readOuter (Reader.start .outer) args

end SourceDebugger.CommandLine
