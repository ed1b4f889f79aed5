import TestAccess.Text.Letter
import TestAccess.Text.Split

/-!
# Variables from a `.env` file

A `.env` file adds variables to the environment. Each of its lines assigns a
text to a name, and a line goes on over a line break as long as a quote is
open. A variable that is set already keeps its text, so of two assignments to
one name the first counts, and the environment counts more than the file.

A text may be quoted, may have escapes, and may name other variables behind a
dollar sign; single quotes turn all of that off. Blanks end a text that is
not quoted, and only a comment may follow them.

The file is read up to the first line that is not an assignment. What has been
read by then stays in force, and nothing is said about the rest.
-/

namespace TestAccess.Dotenv

/-- The variables of an environment, with their texts. -/
abbrev Variables := List (String × String)

/-! ## Lines -/

/-- What the end of a line would fall into. -/
inductive LineState where
  | plain
  /-- Right behind a blank, where a comment may begin. -/
  | blank
  | escape
  | weak
  | weakEscape
  | strong
  | strongEscape
deriving DecidableEq, Repr

/-- Where a character leads to outside quotes. -/
def afterPlain (c : Char) : LineState :=
  if c == '\\' then .escape
  else if c == '"' then .weak
  else if c == '\'' then .strong
  else .plain

/-- Where a character leads to. A blank counts only behind something that is
not blank. -/
def LineState.next (c : Char) : LineState → LineState
  | .plain => if isBlank c && c != '\n' && c != '\r' then .blank else afterPlain c
  | .blank => afterPlain c
  | .escape => .plain
  | .weak => if c == '\\' then .weakEscape else if c == '"' then .plain else .weak
  | .weakEscape => .weak
  | .strong => if c == '\\' then .strongEscape else if c == '\'' then .plain else .strong
  | .strongEscape => .strong

/-- What follows the first line break. -/
def afterBreak : List Char → List Char
  | [] => []
  | c :: cs => if c == '\n' then cs else afterBreak cs

/-- The next line, up to a line break outside quotes, and what follows it. A
comment behind a blank is not part of the line. The last line must be
complete. -/
def takeLine (state : LineState) : List Char → Option (List Char × List Char)
  | [] => if state = .plain then some ([], []) else none
  | c :: cs =>
    if state = .blank && c == '#' then some ([], afterBreak cs)
    else if c == '\n' && state.next c = .plain then some ([], cs)
    else (takeLine (state.next c) cs).map fun (line, rest) => (c :: line, rest)

/-- The next line of a file. A line that begins with a comment is empty, and
always ends with its own line break. -/
def nextLine (cs : List Char) : Option (List Char × List Char) :=
  if (Chars.trimStart cs).head? == some '#' && !(cs.takeWhile isBlank).contains '\n' then
    some ([], afterBreak cs)
  else takeLine .plain cs

/-! ## Texts -/

/-- Where in a text a character stands. -/
inductive TextState where
  | plain
  | escape
  | strong
  /-- In the name of a variable behind a dollar sign. -/
  | name (taken : List Char)
  /-- In the name of a variable in braces. -/
  | braced (taken : List Char)
  /-- Behind the text. -/
  | ended
deriving DecidableEq, Repr

/-- The characters that may follow a backslash, with what they stand for. -/
def escapes : List (Char × Char) :=
  [('\\', '\\'), ('\'', '\''), ('"', '"'), ('$', '$'), (' ', ' '), ('n', '\n')]

/-- The text of a variable, empty if it is not set. -/
def Variables.textOf (vs : Variables) (name : List Char) : List Char :=
  ((vs.lookup (String.ofList name)).getD "").toList

/-- **The text behind an equals sign**, with names replaced by what they stand
for. `weak` says whether a double quote is open. -/
def text? (vs : Variables) (weak : Bool) (state : TextState) (cs : List Char) :
    Option (List Char) :=
  match cs with
  | [] =>
    match state with
    | .strong | .braced _ => none
    | .name taken => if weak then none else some (vs.textOf taken)
    | .plain | .escape | .ended => if weak then none else some []
  | c :: cs =>
    match state with
    | .plain =>
      if c == '$' then text? vs weak (.name []) cs
      else if c == '"' then text? vs (!weak) .plain cs
      else if c == '\\' then text? vs weak .escape cs
      else if weak then (text? vs weak .plain cs).map (c :: ·)
      else if c == '\'' then text? vs weak .strong cs
      else if c == ' ' || c == '\t' then text? vs weak .ended cs
      else (text? vs weak .plain cs).map (c :: ·)
    | .escape =>
      match escapes.lookup c with
      | some d => (text? vs weak .plain cs).map (d :: ·)
      | none => none
    | .strong =>
      if c == '\'' then text? vs weak .plain cs else (text? vs weak .strong cs).map (c :: ·)
    | .name taken =>
      if isAlphanumeric c then text? vs weak (.name (taken ++ [c])) cs
      else if c == '\x7b' && taken = [] then text? vs weak (.braced []) cs
      else if c == '$' then (text? vs weak (.name []) cs).map (vs.textOf taken ++ ·)
      else (text? vs weak .plain cs).map (vs.textOf taken ++ c :: ·)
    | .braced taken =>
      if c == '\x7d' then (text? vs weak .plain cs).map (vs.textOf taken ++ ·)
      else text? vs weak (.braced (taken ++ [c])) cs
    | .ended =>
      if c == ' ' || c == '\t' then text? vs weak .ended cs
      else if c == '#' then some []
      else none

/-! ## Assignments -/

/-- The name at the front of a line, and what follows it. -/
def name? (cs : List Char) : Option (List Char × List Char) :=
  match cs with
  | c :: _ =>
    if c.isAlpha || c == '_' then
      some (cs.takeWhile (fun d => d.isAlphanum || d == '_' || d == '.'),
        cs.dropWhile (fun d => d.isAlphanum || d == '_' || d == '.'))
    else none
  | [] => none

/-- What follows an equals sign, blanks before and behind it aside. -/
def afterEquals? (cs : List Char) : Option (List Char) :=
  match Chars.trimStart cs with
  | '=' :: rest => some (Chars.trimStart rest)
  | _ => none

/-- The name and the unread text of an assignment. The word `export` may
stand in front of it. -/
def sides? (cs : List Char) : Option (List Char × List Char) := do
  let (name, rest) ← name? cs
  match afterEquals? rest with
  | some text => return (name, text)
  | none =>
    guard (name = "export".toList)
    let (name, rest) ← name? (Chars.trimStart rest)
    let text ← afterEquals? rest
    return (name, text)

/-- **An assignment**: its name and text; `none` for a line without one. A
line that is neither empty nor an assignment fails. -/
def assignment? (vs : Variables) (line : List Char) : Option (Option (String × String)) := do
  let line := Chars.trim line
  if line.isEmpty || line.head? == some '#' then return none
  let (name, rest) ← sides? line
  let text ← if rest.head? == some '#' then some [] else text? vs false .plain rest
  return some (String.ofList name, String.ofList text)

/-- **The variables that are set** after a file has been read, with so many
lines left to read. -/
def load (vs : Variables) : (fuel : Nat) → List Char → Variables
  | 0, _ => vs
  | _, [] => vs
  | fuel + 1, cs =>
    match nextLine cs with
    | none => vs
    | some (line, rest) =>
      match assignment? vs line with
      | none => vs
      | some none => load vs fuel rest
      | some (some (name, text)) =>
        load (if (vs.lookup name).isSome then vs else vs ++ [(name, text)]) fuel rest

/-- **The environment with the variables of a file added.** A byte order mark
in front of the file is passed over. -/
def extend (vs : Variables) (file : String) : Variables :=
  let cs := file.toList
  load vs file.length (if cs.head? == some '\ufeff' then cs.tail else cs)

end TestAccess.Dotenv
