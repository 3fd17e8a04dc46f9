import Dataflow.Operation.Lifecycle
import Dataflow.Script.Run

/-! The command line: a script from a file or from standard input is run on an empty store, and its
report printed as JSON. -/

namespace Dataflow

/-- What the arguments ask for. -/
structure CommandLine where
  script : Option String := none
  settings : Option String := none
  isPretty : Bool := false
deriving DecidableEq

/-- What a program leaves behind: its exit code and what it printed. -/
structure CommandLine.Outcome where
  code : Nat
  output : String
deriving DecidableEq

namespace CommandLine

def version : String := "dat 0.1.0\n"

def help : String :=
  "\n".intercalate
    ["Build variables and plot pipelines from a DAT script",
      "",
      "Usage: dat [OPTIONS] [SCRIPT]",
      "",
      "Arguments:",
      "  [SCRIPT]  Script to run; reads stdin when omitted",
      "",
      "Options:",
      "  -c, --config <CONFIG>  Configuration file (defaults to the platform config directory)",
      "  -p, --pretty           Pretty-print the JSON report",
      "  -h, --help             Print help",
      "  -V, --version          Print version",
      ""]

/-- Why arguments do not ask for a run. -/
inductive Stop
  | help
  | version
  | misuse
deriving DecidableEq

/-- A value that may not be empty, for something that can be given once. -/
def once (value : String) : Option String → Except Stop (Option String)
  | none => if value.isEmpty then .error .misuse else .ok (some value)
  | some _ => .error .misuse

def takeScript (c : CommandLine) (value : String) : Except Stop CommandLine := do
  return { c with script := ← once value c.script }

def takeSettings (c : CommandLine) (value : String) : Except Stop CommandLine := do
  return { c with settings := ← once value c.settings }

def takePretty (c : CommandLine) : Except Stop CommandLine :=
  if c.isPretty then .error .misuse else .ok { c with isPretty := true }

/-- What a word of options comes to: it is used up, or its last option takes the next word. -/
inductive Pending
  | done (c : CommandLine)
  | settings (c : CommandLine)

/-- Options of one letter in one word; what follows an option with a value is its value. -/
def takeLetters (c : CommandLine) : List Char → Except Stop Pending
  | [] => .ok (.done c)
  | 'h' :: _ => .error .help
  | 'V' :: _ => .error .version
  | 'p' :: rest => do takeLetters (← c.takePretty) rest
  | 'c' :: [] => .ok (.settings c)
  | 'c' :: '=' :: rest => do return .done (← c.takeSettings (.ofList rest))
  | 'c' :: rest => do return .done (← c.takeSettings (.ofList rest))
  | _ :: _ => .error .misuse

/-- An option by its name, with a value after an equals sign if there is one. -/
def takeNamed (c : CommandLine) (word : List Char) : Except Stop Pending :=
  match Text.cutAtFirst '=' word with
  | some (name, value) =>
    if name = "config".toList then do return .done (← c.takeSettings (.ofList value))
    else .error .misuse
  | none =>
    if word = "config".toList then .ok (.settings c)
    else if word = "pretty".toList then do return .done (← c.takePretty)
    else if word = "help".toList then .error .help
    else if word = "version".toList then .error .version
    else .error .misuse

/-- The arguments from left to right; the first that stops the program decides. After two dashes
all is taken for a script. -/
def ofArguments (c : CommandLine) : List String → Except Stop CommandLine
  | [] => .ok c
  | word :: rest =>
    let next : Except Stop Pending := match word.toList with
      | '-' :: '-' :: name => c.takeNamed name
      | '-' :: letter :: letters => c.takeLetters (letter :: letters)
      | _ => (c.takeScript word).map .done
    if word = "--" then rest.foldlM takeScript c
    else match next, rest with
      | .error stop, _ => .error stop
      | .ok (.done c), rest => ofArguments c rest
      | .ok (.settings _), [] => .error .misuse
      | .ok (.settings c), value :: rest =>
        if value.toList.head? = some '-' && value ≠ "-" then .error .misuse
        else do ofArguments (← c.takeSettings value) rest

/-- What a program finds: the files it can see, the directory of all settings and the directory it is
in, and the text on its standard input. -/
structure Environment where
  files : Files
  settingsDirectory : String
  directory : String
  input : String

/-- A script with the directory its plots are taken from. -/
def loadScript (c : CommandLine) (env : Environment) : Except Error (String × String) :=
  match c.script with
  | some path => do
    let text ← (env.files.read path).mapError .file
    return (text, (Path.parent? path).getD "")
  | none => .ok (env.input, env.directory)

/-- The operations of a program without packages. -/
def catalogue (s : Settings) : Except Error Catalogue := do
  let (c, _) ← (← Lifecycle.init s .absent).finish
  return c

/-- Run a script and print its report. -/
def execute (c : CommandLine) (env : Environment) : Except Error Outcome := do
  let settings ← match c.settings with
    | some path => Settings.load env.files path
    | none =>
      .ok (Settings.loadOrDefault env.files (Path.join env.settingsDirectory Settings.standardPath))
  let (text, base) ← c.loadScript env
  let host : Host := ⟨.withBasics settings, settings⟩
  let start := Workspace.new host (← catalogue settings) .new
  let (report, _) := Statement.runScript ⟨env.files, base⟩ text start
  let printed := if c.isPretty then report.toJson.pretty else report.toJson.compact
  return ⟨if report.isSuccess then 0 else 1, printed ++ "\n"⟩

/-- Everything the program does with its arguments. A run that cannot start prints nothing. -/
def run (arguments : List String) (env : Environment) : Outcome :=
  match ofArguments {} arguments with
  | .error .help => ⟨0, help⟩
  | .error .version => ⟨0, version⟩
  | .error .misuse => ⟨2, ""⟩
  | .ok c =>
    match c.execute env with
    | .ok outcome => outcome
    | .error _ => ⟨1, ""⟩

example : (ofArguments {} ["-pc", "x", "s"]).toOption = some ⟨some "s", some "x", true⟩ := by
  decide +kernel
example : (ofArguments {} ["-c", "-p"]).toOption = none := by decide +kernel
example : (ofArguments {} ["--", "-p"]).toOption = some ⟨some "-p", none, false⟩ := by
  decide +kernel

end CommandLine

end Dataflow
