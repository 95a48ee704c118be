import BracketScript.Config
import BracketScript.Diagnostic
import BracketScript.Machine
import BracketScript.Script
import BracketScript.Session

/-!
# The command line

The program takes options and at most one file. With a file it runs the script in it; without one it
holds a session. All of this is written against a `Console`, which brings the streams and files and
the libraries that edit lines, draw reports and log.
-/

namespace BracketScript

namespace CommandLine

def version : String := "sauros 0.1.0"

def usage : String :=
  String.join <| List.map (· ++ "\n")
    ["Run sauros scripts, or start an interactive session",
     "",
     "Usage: sauros [OPTIONS] [FILE]",
     "",
     "Arguments:",
     "  [FILE]  Script to run. Starts the REPL when omitted",
     "",
     "Options:",
     "      --home <DIR>     Directory searched for imports (overrides SAUROS_HOME)",
     "  -I, --include <DIR>  Additional import search directory",
     "      --log <FILTER>   Log filter directive (overrides SAUROS_LOG)",
     "  -h, --help           Print help",
     "  -V, --version        Print version"]

structure Options where
  home : Option String
  directories : List String
  log : Option String
  file : Option String
  deriving DecidableEq, Repr

namespace Options

def none : Options := ⟨.none, [], .none, .none⟩

end Options

inductive Command where
  | help
  | version
  | run (options : Options)
  | misuse
  deriving DecidableEq, Repr

inductive Setting where
  | home | directory | log
  deriving DecidableEq, Repr

/-- Set an option. A path may not be empty, and only the option for further directories may be
given more than once. -/
def Options.set? (options : Options) (setting : Setting) (value : String) : Option Options :=
  match setting with
  | .home =>
    if value.isEmpty || options.home.isSome then .none else some { options with home := value }
  | .directory =>
    if value.isEmpty then .none
    else some { options with directories := options.directories ++ [value] }
  | .log => if options.log.isSome then .none else some { options with log := value }

/-- Set the file, which may be done once. -/
def Options.setFile? (options : Options) (path : String) : Option Options :=
  if path.isEmpty || options.file.isSome then .none else some { options with file := path }

inductive Argument where
  | help
  | version
  /-- An option, with its value if that is part of the argument. -/
  | setting (setting : Setting) (value : Option String)
  /-- All further arguments are files. -/
  | filesOnly
  | file (path : String)
  | unknown
  deriving DecidableEq, Repr

def longOption (text : List Char) : Argument :=
  let name := String.ofList (text.takeWhile (· != '='))
  let value : Option String :=
    match text.dropWhile (· != '=') with
    | [] => .none
    | _ :: value => some (String.ofList value)
  match name, value with
  | "home", value => .setting .home value
  | "include", value => .setting .directory value
  | "log", value => .setting .log value
  | "help", .none => .help
  | "version", .none => .version
  | _, _ => .unknown

def shortOption : List Char → Argument
  | 'h' :: _ => .help
  | 'V' :: _ => .version
  | ['I'] => .setting .directory .none
  | 'I' :: '=' :: value => .setting .directory (some (String.ofList value))
  | 'I' :: value => .setting .directory (some (String.ofList value))
  | _ => .unknown

def Argument.ofText (text : String) : Argument :=
  match text.toList with
  | ['-'] => .file text
  | ['-', '-'] => .filesOnly
  | '-' :: '-' :: long => longOption long
  | '-' :: short => shortOption short
  | _ => .file text

/-- The argument can be the value of the option in front of it. -/
def isValue (text : String) : Bool :=
  match Argument.ofText text with
  | .file _ => true
  | _ => false

def parseFiles (options : Options) : List String → Command
  | [] => .run options
  | path :: paths =>
    match options.setFile? path with
    | some options => parseFiles options paths
    | none => .misuse

def parseArguments (options : Options) : List String → Command
  | [] => .run options
  | text :: texts =>
    match Argument.ofText text with
    | .help => .help
    | .version => .version
    | .filesOnly => parseFiles options texts
    | .unknown => .misuse
    | .file path =>
      match options.setFile? path with
      | some options => parseArguments options texts
      | none => .misuse
    | .setting setting (some value) =>
      match options.set? setting value with
      | some options => parseArguments options texts
      | none => .misuse
    | .setting setting none =>
      match texts with
      | value :: texts =>
        if isValue value then
          match options.set? setting value with
          | some options => parseArguments options texts
          | none => .misuse
        else .misuse
      | [] => .misuse

def Command.ofArguments (arguments : List String) : Command :=
  parseArguments .none arguments

inductive FilterVerdict where
  | accepted
  | refused (message : String)
  /-- It breaks down on it. -/
  | broken

structure Console (m : Type → Type) where
  look : String → m Entry
  setting? : String → Option String
  print : String → m Unit
  printError : String → m Unit
  /-- The next line of input without its end, until there is none. -/
  nextLine : m (Option String)
  /-- What editing leaves of a line, unless it breaks down on it. -/
  edit? : String → Option String
  /-- A report as it is shown, unless it cannot be drawn. -/
  draw? : Diagnostic.Report → Option String
  judge : String → FilterVerdict

variable {m : Type → Type} [Monad m] {α : Type}

namespace Console

def evaluate (console : Console m) (ev : Evaluator) (machine : Machine) (main : Eval α) :
    m (Outcome α × Machine) := do
  let (outcome, machine) ← machine.run console.look ev main
  let (output, machine) := machine.takeOutput
  console.print output
  return (outcome, machine)

def reportFault (console : Console m) (fault : Fault) (source : Diagnostic.Source) : m Bool := do
  match console.draw? (← Diagnostic.report console.look fault (some source)) with
  | some text =>
    console.printError text
    return true
  | none => return false

end Console

def statusOf (status : Int64) : Nat :=
  (status.toInt % 256).toNat

def statusOfStop : Stop → Nat
  | .exit status => statusOf status
  | .breakOut | .yieldUp _ | .fault _ | .exhausted => 1

/-- The status of a program that broke down, because it came to cut a text inside of a
character. -/
def brokenStatus : Nat := 101

def runFile (console : Console m) (ev : Evaluator) (machine : Machine) (path : String) :
    m (Nat × Machine) := do
  match (← console.look path).read with
  | .error reason =>
    console.printError s!"Failed to access {path}: {reason.message}\n"
    return (1, machine)
  | .ok text =>
    match ← console.evaluate ev machine (Script.execute ev Store.root path text) with
    | (.done _, machine) => return (0, machine)
    | (.stopped (.fault fault), machine) =>
      let reported ← console.reportFault fault ⟨path, text⟩
      return (if reported then 1 else brokenStatus, machine)
    | (.stopped reason, machine) => return (statusOfStop reason, machine)
    | (.blocked, machine) => return (1, machine)

def converse (console : Console m) (ev : Evaluator) :
    (fuel : Nat) → Machine → Session → m Nat
  | 0, _, _ => return 0
  | fuel + 1, machine, session => do
    match (← console.nextLine).map console.edit? with
    | none => return 0
    | some none => return brokenStatus
    | some (some line) =>
      let (session, reply) := session.feed ev Store.root line
      match ← console.evaluate ev machine reply with
      | (.done .quit, _) => return 0
      | (.done .pending, machine) => converse console ev fuel machine session
      | (.done (.values texts), machine) =>
        console.print (String.join (texts.map (· ++ "\n")))
        converse console ev fuel machine session
      | (.stopped (.fault fault), machine) =>
        if ← console.reportFault fault ⟨Session.origin, session.transcript⟩ then
          converse console ev fuel machine session
        else return brokenStatus
      | (.stopped reason, _) => return statusOfStop reason
      | (.blocked, _) => return 1

/-- Tell about a log filter that is none. The program goes on without it unless it is broken. -/
def checkLogFilter (console : Console m) (filter : String) : m Bool := do
  match console.judge filter with
  | .accepted => return true
  | .broken => return false
  | .refused message =>
    console.printError s!"Ignoring invalid log filter `{filter}`: {message}\n"
    return true

def runWith (console : Console m) (config : Config) (file : Option String) : m Nat := do
  let ev := evaluator ⟨config.roots, [], fun _ => none⟩ Machine.unbounded
  match file with
  | some path =>
    let (status, _) ← runFile console ev .initial path
    return status
  | none =>
    console.print (version ++ "\nType :quit or press Ctrl+D to exit.\n")
    converse console ev Machine.unbounded .initial .new

def start (console : Console m) (options : Options) : m Nat := do
  let config ← Config.resolve console.look console.setting? options.home options.directories
    options.log
  if ← checkLogFilter console config.logFilter then runWith console config options.file
  else return brokenStatus

def run (console : Console m) (arguments : List String) : m Nat := do
  match Command.ofArguments arguments with
  | .help =>
    console.print usage
    return 0
  | .version =>
    console.print (version ++ "\n")
    return 0
  | .misuse =>
    console.printError usage
    return 2
  | .run options => start console options

end CommandLine

end BracketScript
