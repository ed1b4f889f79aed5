import TestAccess.Config.Toml.Table
import TestAccess.Text.Reader

/-!
# Reading TOML

The grammar of TOML 1.0, as readers. A document is a list of lines, each
empty or with one statement; what the statements mean together is the matter
of `Toml.document?`. Nothing is recovered from: a document either is read to
its end or is not TOML.

Integers are those of 64 bits with a sign, and a float may not exceed the
numbers of double precision. A date has no counterpart among the values of
settings and becomes a table with a single member. Keys and nested values have
a limited depth.
-/

namespace TestAccess.Toml

open Reader

/-! ## Blanks, comments and the ends of lines -/

/-- A blank within a line. -/
def isSpace (c : Char) : Bool := c == ' ' || c == '\t'

/-- A character that may stand in a line: anything but controls. -/
def isPrintable (c : Char) : Bool := c == '\t' || (0x20 ≤ c.toNat && c.toNat ≠ 0x7F)

/-- Blanks within a line. -/
def spaces : Reader Unit := discard (run isSpace)

/-- A line break. -/
def newline : Reader Unit := literal "\n" <|> literal "\r\n"

/-- A comment. -/
def comment : Reader Unit := literal "#" *> discard (run isPrintable)

/-- The rest of a line behind a statement. -/
def lineEnd : Reader Unit := spaces *> discard (maybe comment) *> (newline <|> atEnd)

/-- Blanks, comments and line breaks, as they may stand in an array. -/
def gaps : Reader Unit :=
  discard (many (discard (someRun isSpace) <|> (discard (maybe comment) *> newline)))

/-! ## Strings -/

/-- The characters that a backslash stands for, with the letter behind it. -/
def escapes : List (Char × Char) :=
  [('b', '\x08'), ('t', '\t'), ('n', '\n'), ('f', '\x0c'), ('r', '\r'), ('"', '"'), ('\\', '\\')]

/-- An escape. -/
def escape : Reader Char := do
  literal "\\"
  let c ← one fun _ => true
  match escapes.lookup c with
  | some d => return d
  | none => if c == 'u' then codePoint 4 else if c == 'U' then codePoint 8 else failure

/-- A string in double quotes. -/
def basicString : Reader (List Char) := do
  literal "\""
  let text ← many (one (fun c => isPrintable c && c != '"' && c != '\\') <|> escape)
  literal "\""
  return text

/-- A string in single quotes. -/
def literalString : Reader (List Char) := do
  literal "'"
  let text ← run fun c => isPrintable c && c != '\''
  literal "'"
  return text

/-- One or two quotes inside a string of several lines. -/
def innerQuotes (quote : Char) : Reader (List Char) := do
  let quotes ← someRun (· == quote)
  guard (quotes.length < 3)
  return quotes

/-- The quotes that close a string of several lines. Up to two more in front
of them belong to the string. -/
def closingQuotes (quote : Char) : Reader (List Char) := fun cs =>
  let count := (cs.takeWhile (· == quote)).length
  if count < 3 then none
  else
    let inner := min (count - 3) 2
    some (List.replicate inner quote, cs.drop (inner + 3))

/-- A line break that a backslash takes out, with the blanks around it. -/
def escapedNewline : Reader (List Char) := do
  literal "\\"
  spaces
  newline
  discard (many (discard (someRun isSpace) <|> newline))
  return []

/-- A string of several lines. A line break right behind its opening quotes
does not count. -/
def multilineString (quote : Char) (hasEscapes : Bool) : Reader (List Char) := do
  literal (String.ofList [quote, quote, quote])
  discard (maybe newline)
  let plain := (fun c => [c]) <$>
    one fun c => isPrintable c && c != quote && !(hasEscapes && c == '\\')
  let escaped := if hasEscapes then escapedNewline <|> (fun c => [c]) <$> escape else failure
  let text ← many (plain <|> (newline *> pure ['\n']) <|> innerQuotes quote <|> escaped)
  let closing ← closingQuotes quote
  return text.flatten ++ closing

/-- Any string. -/
def string : Reader (List Char) :=
  multilineString '"' true <|> multilineString '\'' false <|> basicString <|> literalString

/-! ## Keys -/

/-- A character of a key without quotes. -/
def isBare (c : Char) : Bool :=
  ('a' ≤ c && c ≤ 'z') || ('A' ≤ c && c ≤ 'Z') || c.isDigit || c == '_' || c == '-'

/-- One part of a key. -/
def keyPart : Reader String :=
  String.ofList <$> (basicString <|> literalString <|> someRun isBare)

/-- How deep keys, arrays and tables in braces may be nested. -/
def nesting : Nat := 79

/-- **A key**: its parts, all but the last and the last. -/
def key : Reader (List String × String) := do
  let parts ← separated (spaces *> keyPart <* spaces) (literal ".")
  guard (parts.length ≤ nesting)
  match parts.getLast? with
  | some name => return (parts.dropLast, name)
  | none => failure

/-! ## Numbers and dates -/

/-- Digits of a class, with single underscores between them. -/
def digitGroups (p : Char → Bool) : Reader (List Char) := do
  let first ← one p
  let others ← many (one p <|> (literal "_" *> one p))
  return first :: others

/-- A sign: whether it is a minus. -/
def sign : Reader Bool := do
  match ← maybe (one fun c => c == '+' || c == '-') with
  | some c => return c == '-'
  | none => return false

/-- The digits of a decimal integer, which has no leading zeros. -/
def decimalDigits : Reader (List Char) := do
  if (← ahead) == some '0' then digits (· == '0') 1 else digitGroups Char.isDigit

/-- An integer in a base, behind the letter of the base. -/
def based (letter : String) (base : Nat) (p : Char → Bool) : Reader Int := do
  literal letter
  let ds ← digitGroups p
  return numberOf base ds

/-- A decimal integer. -/
def decimal : Reader Int := do
  let negative ← sign
  let n : Int := numberOf 10 (← decimalDigits)
  return if negative then -n else n

/-- **An integer** of 64 bits. -/
def integer : Reader Int := do
  let n ← based "0x" 16 isHexDigit <|> based "0o" 8 (fun c => '0' ≤ c && c ≤ '7') <|>
    based "0b" 2 (fun c => c == '0' || c == '1') <|> decimal
  guard (Int64.minValue.toInt ≤ n && n ≤ Int64.maxValue.toInt)
  return n

/-- The text that a reader takes. -/
def written {α : Type} (r : Reader α) : Reader String := fun cs =>
  (r cs).map fun (_, rest) => (String.ofList (cs.take (cs.length - rest.length)), rest)

/-- The exponent of a float. -/
def exponent : Reader Int := do
  discard (one fun c => c == 'e' || c == 'E')
  let negative ← sign
  let n : Int := numberOf 10 (← digitGroups Char.isDigit)
  return if negative then -n else n

/-- The least number that is too large for double precision: half a step
above the greatest one. -/
def floatBound : Nat := (2 <<< 1023) - (1 <<< 970)

/-- **Whether a decimal number fits into double precision**: the digits, moved
by a power of ten. The size of the number is told from its digits alone when
it is far away from the bound. -/
def fitsFloat (ds : List Char) (power : Int) : Bool :=
  let significant := ds.dropWhile (· == '0')
  let size := (significant.length : Int) + power
  if significant.isEmpty || size < 300 then true
  else if 320 < size then false
  else
    let n := numberOf 10 significant
    if power < 0 then n < floatBound * Nat.pow 10 power.natAbs
    else n * Nat.pow 10 power.natAbs < floatBound

/-- The digits of a float in front of its exponent, and behind the point. -/
def floatDigits : Reader (List Char × List Char × Option Int) := do
  let whole ← decimalDigits
  (do return (whole, [], some (← exponent))) <|> do
    literal "."
    let fraction ← digitGroups Char.isDigit
    return (whole, fraction, ← maybe exponent)

/-- **A float**: an integer with a fraction, an exponent or both, or one of
the values that are not numbers. Above zero it may not be too large. -/
def float : Reader Unit := do
  let negative ← sign
  literal "inf" <|> literal "nan" <|> do
    let (whole, fraction, power) ← floatDigits
    guard (negative || fitsFloat (whole ++ fraction) (power.getD 0 - fraction.length))

/-- A number of so many digits between two bounds. -/
def bounded (count least greatest : Nat) : Reader Nat := do
  let n := numberOf 10 (← digits Char.isDigit count)
  guard (least ≤ n && n ≤ greatest)
  return n

/-- The number of days in a month. -/
def daysIn (year month : Nat) : Nat :=
  if month == 2 then
    if year % 4 == 0 && (year % 100 != 0 || year % 400 == 0) then 29 else 28
  else if month == 4 || month == 6 || month == 9 || month == 11 then 30
  else 31

/-- A day. -/
def day : Reader Unit := do
  let year ← bounded 4 0 9999
  literal "-"
  let month ← bounded 2 1 12
  literal "-"
  discard (bounded 2 1 (daysIn year month))

/-- A time of day. -/
def timeOfDay : Reader Unit := do
  discard (bounded 2 0 23)
  literal ":"
  discard (bounded 2 0 59)
  literal ":"
  discard (bounded 2 0 60)
  discard (maybe (literal "." *> someRun Char.isDigit))

/-- The difference to universal time. -/
def timeOffset : Reader Unit :=
  literal "Z" <|> literal "z" <|> do
    discard (one fun c => c == '+' || c == '-')
    discard (bounded 2 0 23)
    literal ":"
    discard (bounded 2 0 59)

/-- **A date**, a time, or both. -/
def date : Reader Unit :=
  (do
    day
    discard (maybe (one (fun c => c == 'T' || c == 't' || c == ' ') *> timeOfDay *>
      maybe timeOffset))) <|> timeOfDay

/-- The name of the single member of a date. -/
def dateMember : String := "$__toml_private_datetime"

/-- A number or a date. -/
def number : Reader Value :=
  (do return .table [(dateMember, .text (← written date))]) <|>
    (do return .float (← written float)) <|>
    (do return .integer (← integer))

/-! ## Values -/

/-- The members of a table in braces. -/
def inlineMembers (pairs : List ((List String × String) × Value)) : Option Value.Members := do
  let t ← pairs.foldlM (fun t pair => Table.assign pair.1.1 pair.1.2 pair.2 t) Table.empty
  return t.toMembers

/-- A value without parts. -/
def scalar : Reader Value :=
  (do return .text (String.ofList (← string))) <|> (literal "true" *> pure (.bool true)) <|>
    (literal "false" *> pure (.bool false)) <|> number

/-- An array of values. -/
def array (item : Reader Value) : Reader Value := do
  literal "["
  gaps
  let items ← separated (item <* gaps) (literal "," *> gaps)
  discard (maybe (literal "," *> gaps))
  literal "]"
  return .array items

/-- A key and its value. -/
def pair (item : Reader Value) : Reader ((List String × String) × Value) := do
  let k ← key
  literal "="
  spaces
  let v ← item
  return (k, v)

/-- A table in braces. -/
def inlineTable (item : Reader Value) : Reader Value := do
  literal "\x7b"
  spaces
  let pairs ← separated (pair item <* spaces) (literal ",")
  literal "\x7d"
  match inlineMembers pairs with
  | some members => return .table members
  | none => failure

/-- **A value**, with so many levels of nesting left. -/
def value : (depth : Nat) → Reader Value
  | 0 => scalar
  | depth + 1 => scalar <|> array (value depth) <|> inlineTable (value depth)

/-! ## Documents -/

/-- A header. -/
def header : Reader Statement :=
  (do
    literal "[["
    let (path, name) ← key
    literal "]]"
    return .repeatedHeader path name) <|>
  (do
    literal "["
    let (path, name) ← key
    literal "]"
    return .header path name)

/-- An assignment. -/
def assignment : Reader Statement := do
  let ((path, name), v) ← pair (value nesting)
  return .assignment path name v

/-- A line: a statement, or nothing. -/
def line : Reader (Option Statement) :=
  spaces *>
    ((newline *> pure none) <|> (comment *> lineEnd *> pure none) <|>
      (some <$> (header <|> assignment) <* lineEnd))

/-- The lines of a document, behind a byte order mark that may be there. -/
def lines : Reader (List (Option Statement)) :=
  discard (maybe (literal "\ufeff")) *> many line <* spaces

/-- **Reads a document.** -/
def read? (text : String) : Option Value.Members :=
  (lines.all? text.toList).bind fun statements => document? (statements.filterMap id)

end TestAccess.Toml
