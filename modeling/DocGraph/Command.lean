import DocGraph.Batch

/-!
The command line. Arguments are read from left to right, and the first that cannot be read ends the
run with a usage error; so does an option given twice at one place. Two options may stand before the
command as well as behind it. A value in an argument of its own is looked at when the next option
is, so a command that gives help comes before a bad value in front of it.
-/
namespace DocGraph.Command

/-- The options of a build, as given. -/
structure Request where
  isCompact : Bool := false
  config : Option String := none
  verbosity : Option Int := none
  paths : List String := []
deriving DecidableEq, Repr

/-- What help is about. -/
inductive Topic where
  | program
  | build
  | help
deriving DecidableEq, Repr

/-- What the arguments ask for. -/
inductive Invocation where
  | version
  | help (topic : Topic)
  | build (request : Request)
  | usageError
deriving DecidableEq, Repr

inductive Flag where
  | compact
  | logLevel
  | config
  | verbose
  | help
  | version
deriving DecidableEq, Repr

/-- Where an argument stands: before the command, or behind it. -/
inductive Place where
  | top
  | build
deriving DecidableEq, Repr

def Place.topic : Place → Topic
  | top => .program
  | build => .build

def flagNames : List (String × Flag) :=
  [("--compact", .compact), ("--log-level", .logLevel), ("--config", .config),
    ("--verbose", .verbose), ("--help", .help), ("--version", .version)]

/-- Which options may be given where. -/
def Flag.isKnownAt : Flag → Place → Bool
  | .config, place => place == .build
  | .verbose, place => place == .build
  | .version, place => place == .top
  | _, _ => true

def Flag.takesValue : Flag → Bool
  | .logLevel => true
  | .config => true
  | .verbose => true
  | _ => false

def flag? (place : Place) (name : String) : Option Flag :=
  (flagNames.lookup name).filter fun flag => flag.isKnownAt place

/-- Of a group of short options only the first can be one. -/
def shortFlag? (place : Place) : List Char → Option Flag
  | 'h' :: _ => some .help
  | 'V' :: _ => if place = .top then some .version else none
  | _ => none

/-- The parts before and behind the first equals sign. -/
def cutEquals (cs : List Char) : List Char × Option (List Char) :=
  (cs.takeWhile (· ≠ '='), (cs.dropWhile (· ≠ '=')).tail?)

def logLevels : List String := ["trace", "debug", "info", "warn", "error"]

def isDigits (cs : List Char) : Bool := !cs.isEmpty && cs.all Char.isDigit

def digitsValue (cs : List Char) : Nat := cs.foldl (fun value c => 10 * value + (c.toNat - 48)) 0

/-- Digits behind an optional sign. -/
def signed? : List Char → Option Int
  | '-' :: digits => if isDigits digits then some (-(digitsValue digits : Int)) else none
  | '+' :: digits => if isDigits digits then some (digitsValue digits) else none
  | digits => if isDigits digits then some (digitsValue digits) else none

def verbosity? (text : String) : Option Int :=
  (signed? text.toList).filter fun value => -128 ≤ value && value ≤ 127

/-- What has been read at one place. The value last read is held back if it was an argument of its
own. -/
structure Reading where
  request : Request := {}
  seen : List Flag := []
  held : Option (Flag × String) := none

/-- Takes the value of an option; no option is given twice. -/
def Reading.setValue? (r : Reading) (flag : Flag) (value : String) : Option Reading :=
  if flag ∈ r.seen then none
  else
    let seen := flag :: r.seen
    match flag with
    | .logLevel => if value ∈ logLevels then some { r with seen } else none
    | .config =>
        if value = "" then none else some { request := { r.request with config := some value }, seen }
    | .verbose =>
        (verbosity? value).map fun level =>
          { request := { r.request with verbosity := some level }, seen }
    | _ => none

/-- Takes the value that was held back. -/
def Reading.settle? (r : Reading) : Option Reading :=
  match r.held with
  | some (flag, value) => { r with held := none }.setValue? flag value
  | none => some r

def Reading.setCompact? (r : Reading) : Option Reading :=
  if .compact ∈ r.seen then none
  else some { request := { r.request with isCompact := true }, seen := .compact :: r.seen }

def Reading.addPath? (r : Reading) (path : String) : Option Reading :=
  if path = "" then none
  else some { r with request := { r.request with paths := r.request.paths ++ [path] } }

/-- Whether an argument may be the value of the option before it. What looks like an option may not,
a negative number behind `--verbose` apart. -/
def isValue (flag : Flag) (arg : String) : Bool :=
  match arg.toList with
  | ['-'] => true
  | '-' :: rest => flag == .verbose && isDigits rest
  | _ => true

/-- Paths only, behind `--`. -/
def readPaths (r : Reading) : List String → Invocation
  | [] => if r.request.paths.isEmpty then .usageError else .build r.request
  | path :: rest =>
      match r.addPath? path with
      | some r => readPaths r rest
      | none => .usageError

/-- The names of commands behind `help`; no command has commands of its own. -/
def readTopic : List String → Invocation
  | [] => .help .program
  | ["build"] => .help .build
  | ["help"] => .help .help
  | _ => .usageError

/-- A command behind options. Its help is given whatever they are, but nothing is built unless they
could be taken. -/
def Invocation.behind (isTaken : Bool) : Invocation → Invocation
  | .build request => if isTaken then .build request else .usageError
  | other => other

/-- Reads from the first of the arguments at one place. -/
def read (place : Place) (r : Reading) : List String → Invocation
  | [] =>
      match r.settle? with
      | some r => if place = .build ∧ r.request.paths ≠ [] then .build r.request else .usageError
      | none => .usageError
  | arg :: rest =>
      if place = .top ∧ arg = "build" then
        (read .build { request := r.request } rest).behind r.settle?.isSome
      else if place = .top ∧ arg = "help" then readTopic rest
      else
        match r.settle? with
        | none => .usageError
        | some r =>
            match arg.toList with
            | ['-', '-'] => if place = .build then readPaths r rest else .usageError
            | '-' :: '-' :: _ =>
                let (name, value) := cutEquals arg.toList
                match flag? place (String.ofList name), value with
                | none, _ => .usageError
                | some flag, some value =>
                    match r.setValue? flag (String.ofList value) with
                    | some r => read place r rest
                    | none => .usageError
                | some .help, none => .help place.topic
                | some .version, none => .version
                | some .compact, none =>
                    match r.setCompact? with
                    | some r => read place r rest
                    | none => .usageError
                | some flag, none =>
                    match rest with
                    | [] => .usageError
                    | value :: rest =>
                        if isValue flag value then read place { r with held := some (flag, value) } rest
                        else .usageError
            | '-' :: c :: cs =>
                match shortFlag? place (c :: cs) with
                | some .help => .help place.topic
                | some .version => .version
                | _ => .usageError
            | _ =>
                match place, r.addPath? arg with
                | .build, some r => read place r rest
                | _, _ => .usageError

def parse (args : List String) : Invocation := read .top {} args

/-- What a run prints, and its exit code. -/
structure Outcome where
  exit : Nat := 0
  output : String := ""
deriving DecidableEq, Repr

def versionText : String := "tugdoc 0.1.0\n"

def helpLines : Topic → List String
  | .program =>
      ["Semantic model builder for Python API documentation",
        "",
        "Usage: tugdoc [OPTIONS] <COMMAND>",
        "",
        "Commands:",
        "  build  Build the semantic model of a set of module trees",
        "  help   Print this message or the help of the given subcommand(s)",
        "",
        "Options:",
        "      --log-level <LOG_LEVEL>  Log level for tracing output [default: warn] " ++
          "[possible values: trace, debug, info, warn, error]",
        "      --compact                Emit single-line JSON",
        "  -h, --help                   Print help",
        "  -V, --version                Print version"]
  | .build =>
      ["Build the semantic model of a set of module trees",
        "",
        "Usage: tugdoc build [OPTIONS] <PATHS>...",
        "",
        "Arguments:",
        "  <PATHS>...  Module tree files, or directories to search for `*.json`",
        "",
        "Options:",
        "      --config <CONFIG>        Builder configuration file (JSON)",
        "      --log-level <LOG_LEVEL>  Log level for tracing output [default: warn] " ++
          "[possible values: trace, debug, info, warn, error]",
        "      --compact                Emit single-line JSON",
        "      --verbose <VERBOSE>      Diagnostic verbosity; overrides the configuration file",
        "  -h, --help                   Print help"]
  | .help =>
      ["Print this message or the help of the given subcommand(s)",
        "",
        "Usage: tugdoc help [COMMAND]...",
        "",
        "Arguments:",
        "  [COMMAND]...  Print help for the subcommand(s)"]

def helpText (topic : Topic) : String := String.join ((helpLines topic).map fun line => line ++ "\n")

def usageExit : Nat := 2

/-- The options of a configuration file. -/
def loadOptions (look : String → Option Node) : Option String → Except Failure Options
  | none => .ok {}
  | some path =>
      match look path with
      | some (.file content) =>
          match String.fromUTF8? content with
          | none => .error (.fileNotFound path)
          | some text =>
              (Options.ofText text).mapError fun reason =>
                .invalidArguments ("bad configuration " ++ path ++ ": " ++ reason) none
      | _ => .error (.fileNotFound path)

def runBuild (look : String → Option Node) (request : Request) : Except Failure Report := do
  let options ← loadOptions look request.config
  let options := { options with verbosity := request.verbosity.getD options.verbosity }
  let files ← Batch.collect look request.paths
  if files.isEmpty then .error (.invalidArguments "no module tree files found" none)
  else Batch.build options (files.map fun (path, content) => SourceModule.load path content)

def Outcome.ofFailure (failure : Failure) : Outcome :=
  { exit := failure.code, output := Response.print false (Response.ofFailure failure) }

/-- Runs a command line. `look` gives what stands at a path. -/
def run (look : String → Option Node) (args : List String) : Outcome :=
  match parse args with
  | .version => { output := versionText }
  | .help topic => { output := helpText topic }
  | .usageError => { exit := usageExit }
  | .build request =>
      match runBuild look request with
      | .ok report => { output := Response.print request.isCompact report.toJson }
      | .error failure => Outcome.ofFailure failure

/-- The paths that a command line looks at. -/
def pathsOf (args : List String) : List String :=
  match parse args with
  | .build request => request.config.toList ++ request.paths
  | _ => []

end DocGraph.Command
