import TestAccess.Json
import TestAccess.Text.Split

/-!
# Indented JSON text

The written form of a report: two spaces per level, one member or item per
line, a space behind each colon, and nothing between the brackets of an empty
container. In strings only the quote, the backslash and the control
characters below the space are escaped; all else is written as it is.
-/

namespace TestAccess.Json

/-- A hexadecimal digit, in lower case. -/
def hexDigit (n : Nat) : Char := "0123456789abcdef".toList.getD n '0'

/-- A character inside a quoted string. -/
def escape (c : Char) : List Char :=
  if c = '"' then ['\\', '"']
  else if c = '\\' then ['\\', '\\']
  else if c = '\n' then ['\\', 'n']
  else if c = '\r' then ['\\', 'r']
  else if c = '\t' then ['\\', 't']
  else if c = '\x08' then ['\\', 'b']
  else if c = '\x0c' then ['\\', 'f']
  else if c.toNat < 0x20 then
    ['\\', 'u', '0', '0', hexDigit (c.toNat / 16), hexDigit (c.toNat % 16)]
  else [c]

/-- A text in quotes. -/
def quote (s : String) : String :=
  "\"" ++ String.ofList (s.toList.flatMap escape) ++ "\""

/-- A number in decimal notation, with as many places as it has. -/
def numeral (mantissa : Int) (places : Nat) : String :=
  if places = 0 then toString mantissa
  else
    let digits := (toString mantissa.natAbs).toList
    let padded := List.replicate (places + 1 - digits.length) '0' ++ digits
    let cut := padded.length - places
    (if mantissa < 0 then "-" else "") ++ String.ofList (padded.take cut) ++ "." ++
      String.ofList (padded.drop cut)

/-- A line break followed by the indentation of a level. -/
def lineBreak (level : Nat) : String := "\n" ++ String.ofList (List.replicate (2 * level) ' ')

/-- The lines of a container between its brackets. -/
def enclose (opening closing : String) (level : Nat) : List String → String
  | [] => opening ++ closing
  | items =>
    opening ++ lineBreak (level + 1) ++ Text.join ("," ++ lineBreak (level + 1)) items ++
      lineBreak level ++ closing

mutual

/-- A value at a level of indentation. -/
def printAt (level : Nat) : Json → String
  | .null => "null"
  | .bool b => if b then "true" else "false"
  | .number mantissa places => numeral mantissa places
  | .text s => quote s
  | .array items => enclose "[" "]" level (printItems (level + 1) items)
  | .object members => enclose "\x7b" "\x7d" level (printMembers (level + 1) members)

/-- The items of an array, each at the level. -/
def printItems (level : Nat) : List Json → List String
  | [] => []
  | j :: js => printAt level j :: printItems level js

/-- The members of an object, each at the level. -/
def printMembers (level : Nat) : List (String × Json) → List String
  | [] => []
  | (name, j) :: rest => (quote name ++ ": " ++ printAt level j) :: printMembers level rest

end

/-- **The indented text of a value.** -/
def print (j : Json) : String := printAt 0 j

example : print (.array []) = "[]" := by decide +kernel
example : print (.array [nat 1, .text "a\"\x01"]) = "[\n  1,\n  \"a\\\"\\u0001\"\n]" := by
  decide +kernel
example : numeral (-5) 2 = "-0.05" := by decide +kernel

end TestAccess.Json
