import TestAccess.Command

/-!
# The program

Everything that the outside world has a say in: the variables of the
environment, the configuration files, the sources, and the two streams. It is
all read before the run and written behind it; the run itself is
`Command.runWith`, with the parser of this project and a logger whose lines do
not tell the time.
-/

namespace TestAccess.Program

/-- The reason for a failed read. -/
def readError : IO.Error → ReadError
  | .noFileOrDirectory .. => .notFound
  | .inappropriateType _ code details => ofCode code details
  | e => .other (toString e)
where
  /-- The reason behind a code of the system, which may be given with a
  minus. -/
  ofCode (code : UInt32) (details : String) : ReadError :=
    match min code (0 - code) with
    | 20 => .notDirectory
    | 21 => .isDirectory
    | _ => .other details

/-- The text of a file. -/
def readText (path : String) : IO (Except ReadError String) := do
  try
    return Listing.textOf (← IO.FS.readBinFile path)
  catch e => return .error (readError e)

/-- The files with the given paths. -/
def readFiles (paths : List String) : IO Files := do
  let texts ← paths.mapM fun path => do return (path, ← readText path)
  return fun path => (texts.lookup path).getD (.error .notFound)

/-- A configuration file, if it is there. One that cannot be read is given as
a text that is no TOML. -/
def readConfigFile (path : String) : IO (Option String) := do
  match ← readText path with
  | .ok text => return some text
  | .error .notFound | .error .notDirectory => return none
  | .error _ => return some "\x00"

/-- The variables of the environment. -/
def readEnvironment : IO (List (String × String)) := do
  match ← readText "/proc/self/environ" with
  | .error _ => return []
  | .ok text =>
    return (Chars.pieces (· == '\x00') text.toList).filterMap fun entry =>
      (Chars.splitFirst? (· == '=') entry).map fun (name, value) =>
        (String.ofList name, String.ofList value)

/-- The directory of the user's configuration. -/
def configDirectory? (environment : List (String × String)) : Option String :=
  match (environment.lookup "XDG_CONFIG_HOME").filter fun path => path.startsWith "/" with
  | some path => some path
  | none => (environment.lookup "HOME").map fun home => home ++ "/.config"

/-- The text of the first file that can be read. -/
def readFirst : List String → IO (Option String)
  | [] => return none
  | path :: paths => do
    match ← readText path with
    | .ok text => return some text
    | .error _ => readFirst paths

/-- The paths of a name in the working directory and in so many directories
above it, the nearest first. -/
def pathsAbove (name : String) (above : Nat) : List String :=
  (List.range (above + 1)).map fun steps => Text.join "" (List.replicate steps "../") ++ name

/-- Where the configuration comes from. -/
def readSources : IO ConfigSources := do
  let environment ← readEnvironment
  let user ←
    match configDirectory? environment with
    | some directory => readConfigFile (directory ++ "/vft/config.toml")
    | none => pure none
  let project ← readConfigFile ".vft/config.toml"
  let sources : ConfigSources := { user, project, environment }
  let depth := (Path.components (← IO.currentDir).toString.toList).length
  match ← readFirst (pathsAbove ".env" depth) with
  | some file => return sources.withDotenv file
  | none => return sources

/-- The levels by their names. A filter in words of its own is not understood. -/
def levelNames : List (String × Log.Level) :=
  [("trace", .trace), ("debug", .debug), ("info", .info), ("warn", .warn), ("error", .error)]

/-- The line of an event. -/
def logLine (e : Log.Event) : String :=
  let level := ((levelNames.find? fun p => p.2 == e.level).map Prod.fst).getD ""
  level.toUpper ++ " " ++ e.origin ++ ": " ++ e.message ++
    Text.join "" (e.fields.map fun (name, value) => " " ++ name ++ "=" ++ value) ++ "\n"

/-- The logger of an environment. -/
def loggerOf (environment : List (String × String)) : Logger where
  filter? :=
    ((environment.lookup "VFT_LOG").bind fun name => levelNames.lookup name.toLower).map
      fun least e => least.rank ≤ e.level.rank
  line _ e := logLine e

/-- The outcome of a command line. -/
def outcome (args : List String) : IO Command.Outcome := do
  match Command.parse args with
  | .error stop => return stop.outcome
  | .ok invocation =>
    let logger := loggerOf (← readEnvironment)
    let sources ← readSources
    let files ← readFiles invocation.task.paths
    return Command.runWith Source.parse logger files sources invocation

end TestAccess.Program

/-- Runs the program. -/
def main (args : List String) : IO UInt32 := do
  let o ← TestAccess.Program.outcome args
  IO.print o.out
  IO.eprint o.err
  return UInt32.ofNat o.exit
