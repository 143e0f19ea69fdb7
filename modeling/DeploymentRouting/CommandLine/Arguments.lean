import DeploymentRouting.Environment
/-!
The arguments of the command line. Options come before the command, and the path of
the configuration may also come from the environment. Asking for help or for the
version ends the reading of arguments at once, and so does the first argument that
has no place.
-/
namespace DeploymentRouting.CommandLine

inductive Command where
  | check
  | candidates (model : String)
  | models
  | info
deriving DecidableEq, Repr

/-- What is to be done, and with which configuration. -/
structure Invocation where
  configPath : String
  command : Command
deriving DecidableEq, Repr

/-- What a list of arguments asks for. -/
inductive Reading where
  | invocation (invocation : Invocation)
  /-- A text about the program itself. -/
  | text (text : String)
  | misuse

def programName : String := "llm-router"

def version : String := "0.1.0"

def description : String :=
  "Deployment router for an LLM gateway: tiered selection, per-deployment admission limits, "
    ++ "cooldown and retry/fallback across interchangeable backends"

def defaultConfigPath : String := "config/router.yaml"

def configVariable : String := "LLM_ROUTER_CONFIG"

/-- The commands and what each of them does. -/
def commandSummaries : List (String × String) :=
  [("check", "Validate the configuration and print a summary"),
    ("candidates", "Show candidate tiers for one model name (aliases are resolved)"),
    ("models", "Show candidate tiers for every model name"),
    ("info", "Print build information"),
    ("help", "Print this message or the help of the given subcommand(s)")]

/-- Names and explanations in two columns. -/
def columns (rows : List (String × String)) : String :=
  let width := (rows.map (·.1.length)).foldl max 0
  String.join (rows.map fun row => "  " ++ Text.padRight row.1 width ++ "  " ++ row.2 ++ "\n")

def helpText (environment : Environment) : String :=
  let path := (environment.get? configVariable).getD ""
  description ++ "\n\nUsage: " ++ programName ++ " [OPTIONS] [COMMAND]\n\nCommands:\n"
    ++ columns commandSummaries ++ "\nOptions:\n"
    ++ columns
      [("-c, --config <CONFIG>", "Path to the router configuration file [env: " ++ configVariable
          ++ "=" ++ path ++ "] [default: " ++ defaultConfigPath ++ "]"),
        ("-h, --help", "Print help"), ("-V, --version", "Print version")]

def versionText : String := programName ++ " " ++ version ++ "\n"

/-- The help of one command. -/
def commandHelp (command : String) : String :=
  let (usage, arguments) :=
    if command = "candidates" then
      (" <MODEL>", "Arguments:\n" ++ columns [("<MODEL>", "Logical model name or alias")] ++ "\n")
    else ("", "")
  (commandSummaries.lookup command).getD "" ++ "\n\nUsage: " ++ programName ++ " " ++ command
    ++ usage ++ "\n\n" ++ arguments ++ "Options:\n" ++ columns [("-h, --help", "Print help")]

/-- Whether an argument is an option and not a value. -/
def isOption (argument : String) : Bool := argument.startsWith "-" && argument != "-"

/-- Reads the arguments of a command that takes none. -/
def readNone (command : String) (done : Reading) : List String → Reading
  | [] | ["--"] => done
  | argument :: _ =>
      if argument = "-h" ∨ argument = "--help" then .text (commandHelp command) else .misuse

/-- Reads the arguments of the command for one model. -/
def readModel (path : String) : Option String → List String → Reading
  | none, [] | none, ["--"] => .misuse
  | some model, [] | some model, ["--"] => .invocation ⟨path, .candidates model⟩
  | none, ["--", model] => .invocation ⟨path, .candidates model⟩
  | model, argument :: rest =>
      if argument = "-h" ∨ argument = "--help" then .text (commandHelp "candidates")
      else if isOption argument || model.isSome then .misuse
      else readModel path (some argument) rest

/-- Reads a command and its arguments. -/
def readCommand (environment : Environment) (path : String) (command : String)
    (arguments : List String) : Reading :=
  match command with
  | "check" => readNone command (.invocation ⟨path, .check⟩) arguments
  | "models" => readNone command (.invocation ⟨path, .models⟩) arguments
  | "info" => readNone command (.invocation ⟨path, .info⟩) arguments
  | "candidates" => readModel path none arguments
  | "help" =>
      match arguments with
      | [] => .text (helpText environment)
      | [command] =>
          if (commandSummaries.lookup command).isSome then .text (commandHelp command) else .misuse
      | _ => .misuse
  | _ => .misuse

/-- Refuses an invocation whose path is empty. -/
def checkPath : Reading → Reading
  | .invocation invocation =>
      if invocation.configPath.isEmpty then .misuse else .invocation invocation
  | reading => reading

/-- What a run of options of one letter asks for. -/
inductive Letters where
  | help
  | version
  | config (value : String)
  | unknown

/-- Reads letters after a single hyphen. The path may follow its letter directly or after an equals
sign. -/
def readLetters : List Char → Letters
  | 'h' :: _ => .help
  | 'V' :: _ => .version
  | 'c' :: '=' :: value => .config (String.ofList value)
  | 'c' :: value => .config (String.ofList value)
  | _ => .unknown

/-- Reads arguments, of which the path of the configuration may have come already. -/
def readArguments (environment : Environment) (path : Option String) : List String → Reading
  | [] | ["--"] =>
      let path := path.getD ((environment.get? configVariable).getD defaultConfigPath)
      checkPath (.invocation ⟨path, .check⟩)
  | "--config" :: value :: rest =>
      if isOption value || value.isEmpty || path.isSome then .misuse
      else readArguments environment (some value) rest
  | "-c" :: value :: rest =>
      if isOption value || value.isEmpty || path.isSome then .misuse
      else readArguments environment (some value) rest
  | argument :: rest =>
      if argument = "--help" then .text (helpText environment)
      else if argument = "--version" then .text versionText
      else if argument.startsWith "--config=" then
        let value := (argument.drop 9).toString
        if value.isEmpty || path.isSome then .misuse
        else readArguments environment (some value) rest
      else if argument.startsWith "--" then .misuse
      else if isOption argument then
        match readLetters (argument.toList.drop 1) with
        | .help => .text (helpText environment)
        | .version => .text versionText
        | .config value =>
            if value.isEmpty || path.isSome then .misuse
            else readArguments environment (some value) rest
        | .unknown => .misuse
      else
        let path := path.getD ((environment.get? configVariable).getD defaultConfigPath)
        checkPath (readCommand environment path argument rest)

end DeploymentRouting.CommandLine
