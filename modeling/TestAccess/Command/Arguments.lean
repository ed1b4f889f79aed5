import TestAccess.Config

/-!
# Arguments of the command line

There are three commands, each with words and switches of its own, and a few
options that may stand in front of the command as well as behind it. The
arguments in front of the command and those behind it are read in the same
way, as two *levels*: each level allows some switches, and no switch or option
may be given twice on one level. Where an option is given on both, the one
behind the command counts.

An argument is one of four things: a word, an option by its long name, a
cluster of options by their letters, or the separator `--`, behind which
everything is a word. Reading stops at the first argument that does not fit.
-/

namespace TestAccess.Command

/-- How results are written. -/
inductive Format where
  | text
  | json
deriving DecidableEq, Repr

/-- The format of a name. -/
def Format.ofName? : List Char → Option Format
  | ['t', 'e', 'x', 't'] => some .text
  | ['j', 's', 'o', 'n'] => some .json
  | _ => none

/-- **What is to be done.** -/
inductive Task where
  /-- Write a source with its accessors. -/
  | expand (file : String) (overrides : Overrides)
  /-- Write the diagnostics of sources. -/
  | check (files : List String) (strictInit : Bool)
  /-- Write the sites of a source. -/
  | list (file : String)
deriving DecidableEq, Repr

/-- **A run of the program.** -/
structure Invocation where
  task : Task
  format : Format := .text
  quiet : Bool := false
  verbose : Bool := false
deriving DecidableEq, Repr

/-- Why there is nothing to run. -/
inductive Stop where
  /-- The arguments do not fit. -/
  | misuse
  /-- The version is asked for. -/
  | version
  /-- Help is asked for. -/
  | help
deriving DecidableEq, Repr

/-! ## Switches -/

/-- An option without a value. -/
inductive Switch where
  | quiet
  | verbose
  | version
  | help
  | compact
  | strictInit
  | keepMarker
deriving DecidableEq, Repr

/-- The long names of switches. -/
def Switch.names : List (String × Switch) :=
  [("quiet", .quiet), ("verbose", .verbose), ("version", .version), ("help", .help),
    ("compact", .compact), ("strict-init", .strictInit), ("keep-annotation", .keepMarker)]

/-- The letters of switches. -/
def Switch.letters : List (Char × Switch) :=
  [('q', .quiet), ('v', .verbose), ('V', .version), ('h', .help)]

/-! ## Levels -/

/-- How many words a level takes. -/
inductive Room where
  /-- The level ends with the first word. -/
  | nothing
  | one
  | many
deriving DecidableEq, Repr

/-- **A level of the command line**: the switches it allows, and how many
words it takes. -/
structure Level where
  switches : List Switch
  room : Room

/-- What has been given on a level. -/
structure Given where
  switches : List Switch := []
  format : Option Format := none
  words : List String := []
deriving DecidableEq, Repr

namespace Given

/-- Whether a switch has been given. -/
def has (g : Given) (s : Switch) : Bool := g.switches.contains s

/-- Adds a switch, which must be allowed and new. -/
def addSwitch (g : Given) (level : Level) (s : Switch) : Except Stop Given :=
  if !level.switches.contains s then .error .misuse
  else
    match s with
    | .version => .error .version
    | .help => .error .help
    | s => if g.has s then .error .misuse else .ok { g with switches := g.switches ++ [s] }

/-- Adds a format, which must be known and the first. -/
def addFormat (g : Given) (name : List Char) : Except Stop Given :=
  match g.format, Format.ofName? name with
  | none, some f => .ok { g with format := some f }
  | _, _ => .error .misuse

/-- Adds a word, for which there must be room. -/
def addWord (g : Given) (level : Level) (word : String) : Except Stop Given :=
  if level.room = .one && g.words ≠ [] then .error .misuse
  else .ok { g with words := g.words ++ [word] }

end Given

/-! ## Arguments -/

/-- **An argument.** -/
inductive Argument where
  | word
  | separator
  | long (name : List Char) (value : Option (List Char))
  | letters (cluster : List Char)
deriving DecidableEq, Repr

/-- What an argument is. A single dash is a word. -/
def Argument.ofText (text : List Char) : Argument :=
  match text with
  | ['-', '-'] => .separator
  | '-' :: '-' :: rest =>
    match Chars.splitFirst? (· == '=') rest with
    | some (name, value) => .long name (some value)
    | none => .long rest none
  | '-' :: c :: rest => .letters (c :: rest)
  | _ => .word

/-- What has been given after an option, and whether the option still waits
for its value. -/
abbrev Step := Except Stop (Given × Bool)

/-- An option by its long name. -/
def readLong (level : Level) (g : Given) (name : List Char) (value : Option (List Char)) : Step :=
  if name = "format".toList then
    match value with
    | some v => return (← g.addFormat v, false)
    | none => return (g, true)
  else
    match value, Switch.names.lookup (String.ofList name) with
    | none, some s => return (← g.addSwitch level s, false)
    | _, _ => .error .misuse

/-- Options by their letters. The letter of the format takes the rest of the
cluster as its value, or waits for one; an equals sign may stand in
between. -/
def readLetters (level : Level) (g : Given) : List Char → Step
  | [] => .ok (g, false)
  | 'f' :: [] => .ok (g, true)
  | 'f' :: '=' :: value => return (← g.addFormat value, false)
  | 'f' :: value => return (← g.addFormat value, false)
  | c :: cluster =>
    match Switch.letters.lookup c with
    | some s =>
      match g.addSwitch level s with
      | .ok g => readLetters level g cluster
      | .error stop => .error stop
    | none => .error .misuse

/-- The options of an argument. -/
def readOption (level : Level) (g : Given) : Argument → Step
  | .long name value => readLong level g name value
  | .letters cluster => readLetters level g cluster
  | .word | .separator => .ok (g, false)

/-- **Reads the arguments of a level**: what has been given, and the arguments
from the word on that ends the level. -/
def readLevel (level : Level) : Given → List String → Except Stop (Given × List String)
  | g, [] => .ok (g, [])
  | g, arg :: args =>
    match Argument.ofText arg.toList with
    | .separator =>
      if level.room ≠ .nothing then .ok ({ g with words := g.words ++ args }, [])
      else if args.isEmpty then .ok (g, [])
      else .error .misuse
    | .word =>
      if level.room = .nothing then .ok (g, arg :: args)
      else
        match g.addWord level arg with
        | .error stop => .error stop
        | .ok g => readLevel level g args
    | option =>
      match readOption level g option with
      | .error stop => .error stop
      | .ok (g, false) => readLevel level g args
      | .ok (g, true) =>
        match args with
        | [] => .error .misuse
        | value :: args =>
          match g.addFormat value.toList with
          | .error stop => .error stop
          | .ok g => readLevel level g args

/-! ## The command line -/

/-- The level in front of the command. -/
def frontLevel : Level := ⟨[.quiet, .verbose, .version, .help], .nothing⟩

/-- The level behind a command with the given switches. -/
def levelBehind (switches : List Switch) (room : Room) : Level :=
  ⟨[.quiet, .verbose, .help] ++ switches, room⟩

/-- The level behind the command of a name. -/
def levelOf? : String → Option Level
  | "expand" => some (levelBehind [.compact, .strictInit, .keepMarker] .one)
  | "check" => some (levelBehind [.strictInit] .many)
  | "list" => some (levelBehind [] .one)
  | _ => none

/-- Help is asked for as if by a command. It takes the name of one command,
itself included. -/
def help : List String → Stop
  | [] => .help
  | [name] => if name = "help" || (levelOf? name).isSome then .help else .misuse
  | _ => .misuse

/-- The task of a command with what has been given behind it. -/
def taskOf? (name : String) (g : Given) : Option Task :=
  match name, g.words with
  | "expand", [file] =>
    some (.expand file
      { compact := g.has .compact, strictInit := g.has .strictInit,
        keepsMarker := g.has .keepMarker })
  | "check", file :: files => some (.check (file :: files) (g.has .strictInit))
  | "list", [file] => some (.list file)
  | _, _ => none

/-- What has been given in front of a command and behind it, as one run. -/
def invocation (front behind : Given) (task : Task) : Invocation :=
  { task, format := (behind.format <|> front.format).getD .text,
    quiet := front.has .quiet || behind.has .quiet,
    verbose := front.has .verbose || behind.has .verbose }

/-- **Reads the command line.** -/
def parse (args : List String) : Except Stop Invocation := do
  let (front, args) ← readLevel frontLevel {} args
  match args with
  | [] => .error .misuse
  | "help" :: args => .error (help args)
  | name :: args =>
    match levelOf? name with
    | none => .error .misuse
    | some level =>
      let (behind, _) ← readLevel level {} args
      match taskOf? name behind with
      | some task => return invocation front behind task
      | none => .error .misuse

end TestAccess.Command
