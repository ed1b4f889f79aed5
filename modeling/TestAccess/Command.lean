import TestAccess.Command.Arguments
import TestAccess.Command.Listing
import TestAccess.Config.Load
import TestAccess.Json.Printer
import TestAccess.Log
import TestAccess.Source.Outline

/-!
# Commands

A run of the program is a function of its arguments, of where its
configuration comes from, and of the files; its outcome is an exit code and
the texts on the two streams. A failure ends the run with exit code 2 and a
message, and nothing else is written. Diagnostics are not failures: a run
that has some ends with exit code 1.

Everything that can fail is done before anything is written, so no outcome
has part of a result in it. Only the log is written along the way. It goes to
the stream of the messages, and since a message comes when all files have been
read, the log stands in front of it.

Two things are not settled here, and are parameters of a run: which tree the
parser makes of a source, and what the logger makes of an event.
-/

namespace TestAccess.Command

/-- **The outcome of a run.** -/
structure Outcome where
  exit : Nat
  out : String
  err : String
deriving DecidableEq, Repr

/-- **Why a run fails.** -/
inductive Failure where
  /-- The path is not that of a Swift source. -/
  | unsupported (path : String)
  | unreadable (path : String) (e : ReadError)
  | splicing (e : SpliceError)
  | configuration (e : ConfigError)
deriving DecidableEq, Repr

/-- The message of a failure. The cause of a failed read is told twice, in the
sentence and behind it. -/
def Failure.message : Failure → String
  | .unsupported path => "Language not supported: " ++ path
  | .unreadable path e => "Failed to read " ++ path ++ ": " ++ e.message ++ ": " ++ e.message
  | .splicing e => e.message
  | .configuration e => e.message

/-- The outcome of a failure. -/
def Failure.outcome (f : Failure) : Outcome := ⟨2, "", "vft error: " ++ f.message ++ "\n"⟩

/-- A result or the outcome of its failure. -/
def Outcome.ofResult : Except Failure Outcome → Outcome
  | .ok o => o
  | .error f => f.outcome

/-- The outcome with lines of the log in front of the messages. -/
def Outcome.behind (o : Outcome) (logged : String) : Outcome := { o with err := logged ++ o.err }

/-! ## Parts of the commands -/

/-- **Reads a source.** The path is looked at before the file. -/
def readSource (files : Files) (path : String) : Except Failure String :=
  if !Path.isSwift path then .error (.unsupported path)
  else (files path).mapError (.unreadable path)

section Parse

variable (parse : String → Node)

/-- **The report on a file.** -/
def reportOn (files : Files) (c : Config) (path : String) : Except Failure FileReport := do
  let source ← readSource files path
  return FileReport.ofSites c path source ((parse source).scan source c.markerName)

/-- **What reports on files record**, up to the first that cannot be read. -/
def eventsOn (files : Files) (c : Config) : List String → List Log.Event
  | [] => []
  | path :: paths =>
    match readSource files path with
    | .error _ => []
    | .ok source =>
      FileReport.events c path source (parse source) ++ eventsOn files c paths

end Parse

/-- A text as it is written: it ends with a line break unless it is empty. -/
def printed (text : String) : String :=
  if text.isEmpty || Text.endsIn text ['\n'] then text else text ++ "\n"

/-- Lines as they are written. -/
def lines (ls : List String) : String := Text.join "" (ls.map fun l => l ++ "\n")

/-- The exit code of a run with diagnostics or without. -/
def exitCode (hasErrors : Bool) : Nat := if hasErrors then 1 else 0

/-! ## Expanding -/

/-- What is written for an expanded source. A source with diagnostics is not
written as text. -/
def expandedText (c : Config) (r : FileReport) : Format → Except Failure String
  | .json => .ok (printed r.toJson.print)
  | .text =>
    if r.hasErrors then .ok ""
    else
      match r.spliced c.expansion.stripsMarker with
      | .ok text => .ok (printed text)
      | .error e => .error (.splicing e)

/-- **Expands a file.** -/
def expand (parse : String → Node) (files : Files) (c : Config) (format : Format)
    (path : String) : Except Failure Outcome := do
  let r ← reportOn parse files c path
  let out ← expandedText c r format
  return ⟨exitCode r.hasErrors, out, lines r.diagnosticLines⟩

/-! ## Checking -/

/-- The result of a check of one file. -/
def checkJson (r : FileReport) : Json :=
  .object [("path", .text r.path), ("sites", .nat r.sites.length),
    ("diagnostics", .list Diagnostic.toJson r.diagnostics)]

/-- What is written for checked files. -/
def checkedText (rs : List FileReport) : Format → String
  | .json => printed (Json.list checkJson rs).print
  | .text => lines (rs.flatMap FileReport.diagnosticLines)

/-- The line that sums a check up. -/
def summary (rs : List FileReport) (errors : Nat) : String :=
  "checked " ++ toString rs.length ++ " file(s): " ++ toString errors ++ " error(s)\n"

/-- **Checks files**, all of which must be readable. -/
def check (parse : String → Node) (files : Files) (c : Config) (format : Format) (quiet : Bool)
    (paths : List String) : Except Failure Outcome := do
  let rs ← paths.mapM (reportOn parse files c)
  let errors := (rs.flatMap FileReport.diagnostics).length
  return ⟨exitCode (errors != 0), checkedText rs format, if quiet then "" else summary rs errors⟩

/-! ## Listing -/

/-- The line of a site. -/
def siteLine (path : String) (s : SiteReport) : String :=
  path ++ ":" ++ toString s.line ++ ": " ++ s.shape ++ " " ++ s.declaration ++ " -> " ++
    if s.accessors.isEmpty then "(none)" else Text.join ", " s.accessors

/-- What is written for listed sites. -/
def listedText (r : FileReport) : Format → String
  | .json => printed r.toJson.print
  | .text => printed (Text.join "\n" (r.sites.map (siteLine r.path)))

/-- **Lists the sites of a file.** -/
def list (parse : String → Node) (files : Files) (c : Config) (format : Format)
    (path : String) : Except Failure Outcome := do
  let r ← reportOn parse files c path
  return ⟨0, listedText r format, ""⟩

/-! ## Runs -/

/-- The files that a task looks at. -/
def Task.paths : Task → List String
  | .expand path _ => [path]
  | .check paths _ => paths
  | .list path => [path]

/-- The configuration with what a task changes about it. -/
def Task.settings (c : Config) : Task → Config
  | .expand _ overrides => c.overriddenBy overrides
  | .check _ strictInit => c.overriddenBy { strictInit }
  | .list _ => c

/-- The least level that is logged without a filter. -/
def Invocation.logLevel (i : Invocation) : Log.Level :=
  if i.quiet then .error else if i.verbose then .debug else .warn

/-- Runs a task under a configuration. -/
def perform (parse : String → Node) (files : Files) (c : Config) (i : Invocation) :
    Except Failure Outcome :=
  match i.task with
  | .expand path _ => expand parse files (i.task.settings c) i.format path
  | .check paths _ => check parse files (i.task.settings c) i.format i.quiet paths
  | .list path => list parse files (i.task.settings c) i.format path

/-- **What a run records** once its configuration has been loaded. -/
def events (parse : String → Node) (files : Files) (c : Config) (i : Invocation) :
    List Log.Event :=
  .loaded c :: eventsOn parse files (i.task.settings c) i.task.paths

/-- **What a run logs.** -/
def logged (parse : String → Node) (logger : Logger) (files : Files) (c : Config)
    (i : Invocation) : String :=
  logger.text i.logLevel (events parse files c i)

/-- **Runs the program** with a parser and a logger. The configuration is loaded
before any file is looked at. -/
def runWith (parse : String → Node) (logger : Logger) (files : Files) (sources : ConfigSources)
    (i : Invocation) : Outcome :=
  match Config.load sources with
  | .error e => (Failure.configuration e).outcome
  | .ok c => (Outcome.ofResult (perform parse files c i)).behind (logged parse logger files c i)

/-- Runs the program with the parser that comes with it, and without a log. -/
def run (files : Files) (sources : ConfigSources) (i : Invocation) : Outcome :=
  runWith Source.parse .silent files sources i

/-- The version of the program. -/
def versionText : String := "vft 0.1.0\n"

/-- How the program is used. -/
def usageText : String :=
  "Usage: vft [--format text|json] [--quiet] [--verbose] <command>\n\n" ++
    "Commands:\n" ++
    "  expand FILE [--compact] [--strict-init] [--keep-annotation]\n" ++
    "  check FILE... [--strict-init]\n" ++
    "  list FILE\n"

/-- The outcome of arguments that give nothing to run. -/
def Stop.outcome : Stop → Outcome
  | .misuse => ⟨2, "", usageText⟩
  | .version => ⟨0, versionText, ""⟩
  | .help => ⟨0, usageText, ""⟩

end TestAccess.Command
