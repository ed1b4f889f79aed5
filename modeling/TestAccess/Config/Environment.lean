import TestAccess.Config.Toml

/-!
# Settings in environment variables

A variable whose name begins with `VFT_` is a setting. The rest of its name
is a path: the parts are separated by two underscores or by a dot, and the
case of letters does not matter. Its text is read as a value where it has the
form of one – a truth value, a number, a quoted text, an array or a table –
and is taken as it stands otherwise. In this way numbers need no quotes in
the environment and texts hardly ever do.

The variables make one layer of settings together. A later variable is laid
over the earlier ones.
-/

namespace TestAccess.Environment

open Reader

/-! ## Names -/

/-- What the name of a setting begins with, in lower case. -/
def lead : String := "vft_"

/-- A name with its pairs of underscores turned into dots. -/
def dotted : List Char → List Char
  | '_' :: '_' :: cs => '.' :: dotted cs
  | c :: cs => c :: dotted cs
  | [] => []

/-- **The path of the setting that a variable names.** Blanks around it do not
count, and a path with an empty part names nothing. -/
def path? (name : String) : Option (List String) := do
  let rest ← Chars.dropPrefix? lead.toList ((Chars.trim name.toList).map Char.toLower)
  let parts := Chars.pieces (· == '.') (Chars.trim (dotted rest))
  if parts.contains [] then none else some (parts.map String.ofList)

/-! ## Values -/

/-- The blanks around values. -/
def isSpace (c : Char) : Bool := c == ' ' || c == '\t' || c == '\n' || c == '\x0c' || c == '\r'

/-- Blanks. -/
def spaces : Reader Unit := discard (run isSpace)

/-- A character that separates values. -/
def isSeparator (c : Char) : Bool :=
  c == ',' || c == '\x7b' || c == '\x7d' || c == '[' || c == ']'

/-- A number with a point. -/
def pointed : Reader Unit := do
  discard Toml.sign
  let whole ← run Char.isDigit
  literal "."
  let fraction ← run Char.isDigit
  guard (whole ≠ [] || fraction ≠ [])
  discard (maybe (one (fun c => c == 'e' || c == 'E') *> Toml.sign *> someRun Char.isDigit))

/-- An integer that fits into 64 bits, with a sign if it has a minus. -/
def whole : Reader Int := do
  let negative ← Toml.sign
  let n : Int := numberOf 10 (← someRun Char.isDigit)
  guard (if negative then Int64.minValue.toInt ≤ -n else n < UInt64.size)
  return if negative then -n else n

/-- The value of a word: a number if it has the form of one. -/
def ofWord (word : List Char) : Value :=
  if (pointed.all? word).isSome then .float (String.ofList word)
  else
    match whole.all? word with
    | some n => .integer n
    | none => .text (String.ofList word)

/-- A word: everything up to a separator, without the blanks around it. -/
def word : Reader Value := do return ofWord (Chars.trim (← run fun c => !isSeparator c))

/-- A single character in quotes. -/
def character : Reader Value := do
  literal "'"
  let c ← one fun _ => true
  literal "'"
  return .character c

/-- Items up to a closing bracket, separated by commas: behind an opening
bracket and behind a comma, the closing bracket ends the items. -/
def itemsUpTo {α : Type} (closing : String) (item : Reader α) : (fuel : Nat) → Reader (List α)
  | 0 => failure
  | fuel + 1 => (literal closing *> pure []) <|> do
    let first ← item
    let others ← (literal "," *> itemsUpTo closing item fuel) <|> (literal closing *> pure [])
    return first :: others

/-- Items in brackets, separated by commas. A comma may stand behind the
last. -/
def bracketed {α : Type} (opening closing : String) (item : Reader α) : Reader (List α) := fun cs =>
  (literal opening *> itemsUpTo closing item cs.length) cs

/-- A name and its value in a table. -/
def pair (item : Reader Value) : Reader (String × Value) := do
  spaces
  let name ← Toml.basicString <|> someRun Toml.isBare
  spaces
  literal "="
  spaces
  let v ← item
  spaces
  return (String.ofList name, v)

/-- A table in braces; of two members with one name the later counts. -/
def table (item : Reader Value) : Reader Value := do
  let pairs ← bracketed "\x7b" "\x7d" (pair item)
  return .table (pairs.foldl (fun members p => Value.put p.1 p.2 members) [])

/-- A value without the blanks around it. What its first characters promise
it must keep. -/
def form (item : Reader Value) : Reader Value := fun cs =>
  match cs with
  | 't' :: 'r' :: 'u' :: 'e' :: rest => some (.bool true, rest)
  | 'f' :: 'a' :: 'l' :: 's' :: 'e' :: rest => some (.bool false, rest)
  | '\x7b' :: _ => table item cs
  | '[' :: _ => (Value.array <$> bracketed "[" "]" item) cs
  | '"' :: _ => ((fun s => Value.text (String.ofList s)) <$> Toml.basicString) cs
  | '\'' :: _ => character cs
  | _ => word cs

/-- A value, with so many levels of nesting left. -/
def value : (depth : Nat) → Reader Value
  | 0 => failure
  | depth + 1 => spaces *> form (value depth) <* spaces

/-- **The value of a text**: the text itself, unless all of it has the form of
a value. -/
def valueOf (text : String) : Value :=
  ((value (text.length + 1)).all? text.toList).getD (.text text)

/-! ## The layer -/

/-- **The settings in the environment.** -/
def layer (environment : List (String × String)) : Value :=
  environment.foldl
    (fun below (name, text) =>
      match path? name with
      | some path => (Value.nest path (valueOf text)).overlay below
      | none => below)
    (.table [])

end TestAccess.Environment
