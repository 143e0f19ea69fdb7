import DeploymentRouting.CommandLine.Basic
/-!
The program: it reads files and the environment as the command line asks for them,
and prints what comes of it.
-/
namespace DeploymentRouting

/-- Reads a file, or tells why it has no text. -/
def readFile (path : String) : IO (Except FileError String) := do
  try
    let bytes ← IO.FS.readBinFile path
    match String.fromUTF8? bytes with
    | some text => return .ok text
    | none => return .error .notText
  catch error =>
    match error with
    | .inappropriateType _ code _ =>
        return .error (if code = 21 then .isDirectory else .notDirectory)
    | _ => return .error .notFound

/-- The environment variables that the program looks at. -/
def knownVariables : List String :=
  [CommandLine.configVariable, "LLM_ROUTER_STRATEGY", "LLM_ROUTER_MAX_ATTEMPTS",
    "LLM_ROUTER_TIMEOUT_SECS", "LLM_ROUTER_LOG_LEVEL", "RUST_LOG"]

/-- The names that a file of assignments may have to do with: its words, with and without the
other marks that a name may hold. -/
def namesIn (text : String) : List String :=
  let words (isPart : Char → Bool) : List String :=
    (text.map fun c => if isPart c then c else ' ').splitOn " "
  ((words Environment.isNamePart ++ words Char.isAlphanum).filter (!·.isEmpty)).eraseDups

/-- The texts that the environment has for some names. -/
def readEnvironment (names : List String) : IO Environment :=
  names.foldlM (fun environment name => do
    match ← IO.getEnv name with
    | some text => return environment.insert name text
    | none => return environment) ∅

/-- The path of the configuration that the arguments ask for. -/
def configPath? (environment : Environment) (arguments : List String) : Option String :=
  match CommandLine.readArguments environment none arguments with
  | .invocation invocation => some invocation.configPath
  | _ => none

end DeploymentRouting

open DeploymentRouting in
def main (arguments : List String) : IO UInt32 := do
  let assignments ← readFile ".env"
  let text := match assignments with
    | .ok text => text
    | .error _ => ""
  let environment ← readEnvironment (knownVariables ++ namesIn text)
  let full := environment.addFile text
  let content ← match configPath? full arguments with
    | some path => readFile path
    | none => pure (.error .notFound)
  let outcome := CommandLine.run arguments environment fun path =>
    if path = ".env" then assignments else content
  IO.print outcome.output
  IO.eprint outcome.error
  return UInt32.ofNat outcome.code
