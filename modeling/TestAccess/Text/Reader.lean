import TestAccess.Text.Split

/-!
# Readers of text

A reader takes something off the front of a text, or fails and leaves the
text as it was. Readers are functions from a text to a value and the rest of
the text, and they are combined in `do` blocks; an alternative is tried from
where the failed one began.

Repetition is the only place where a reader could run on for ever. A
repetition therefore goes on only as long as the rest gets shorter, which is
what makes it total: a reader that takes nothing is not repeated.
-/

namespace TestAccess

/-- **A reader** of values of a type. -/
abbrev Reader (α : Type) := StateT (List Char) Option α

namespace Reader

variable {α β : Type}

/-- The next character in a class. -/
def one (p : Char → Bool) : Reader Char := fun cs =>
  match cs with
  | c :: rest => if p c then some (c, rest) else none
  | [] => none

/-- The longest run of characters in a class, which may be empty. -/
def run (p : Char → Bool) : Reader (List Char) := fun cs =>
  some (cs.takeWhile p, cs.dropWhile p)

/-- The longest run of characters in a class, which may not be empty. -/
def someRun (p : Char → Bool) : Reader (List Char) := do
  let taken ← run p
  guard (taken ≠ [])
  return taken

/-- The given text. -/
def literal (text : String) : Reader Unit := fun cs =>
  (Chars.dropPrefix? text.toList cs).map fun rest => ((), rest)

/-- The end of the text. -/
def atEnd : Reader Unit := fun cs => if cs = [] then some ((), cs) else none

/-- The next character, which is not taken. -/
def ahead : Reader (Option Char) := fun cs => some (cs.head?, cs)

/-- What a reader takes, or nothing if it fails. -/
def maybe (r : Reader α) : Reader (Option α) := (some <$> r) <|> pure none

/-- The results of a reader, repeated as long as it takes something. -/
def repeated (r : Reader α) (cs : List Char) : List α × List Char :=
  match r cs with
  | none => ([], cs)
  | some (a, rest) =>
    if rest.length < cs.length then
      let (others, rest) := repeated r rest
      (a :: others, rest)
    else ([], cs)
termination_by cs.length

/-- **Repeats a reader** as often as it takes something, maybe never. -/
def many (r : Reader α) : Reader (List α) := fun cs => some (repeated r cs)

/-- The results of a reader with separators in between, maybe none. -/
def separated (r : Reader α) (separator : Reader β) : Reader (List α) := do
  match ← maybe r with
  | none => return []
  | some a =>
    let others ← many (separator *> r)
    return a :: others

/-- **Reads a whole text.** -/
def all? (r : Reader α) (text : List Char) : Option α :=
  match r text with
  | some (a, []) => some a
  | _ => none

/-! ## Digits -/

/-- The value of a digit in bases up to sixteen. -/
def digitValue (c : Char) : Nat :=
  if c.isDigit then c.toNat - '0'.toNat
  else if 'a' ≤ c && c ≤ 'f' then c.toNat - 'a'.toNat + 10
  else c.toNat - 'A'.toNat + 10

/-- Whether a character is a hexadecimal digit. -/
def isHexDigit (c : Char) : Bool :=
  c.isDigit || ('a' ≤ c && c ≤ 'f') || ('A' ≤ c && c ≤ 'F')

/-- The number that digits denote in a base. -/
def numberOf (base : Nat) (digits : List Char) : Nat :=
  digits.foldl (fun n c => n * base + digitValue c) 0

/-- So many digits of a class. -/
def digits (p : Char → Bool) : (count : Nat) → Reader (List Char)
  | 0 => return []
  | count + 1 => do
    let d ← one p
    let ds ← digits p count
    return d :: ds

/-- A character given by so many hexadecimal digits, which must denote
one. -/
def codePoint (count : Nat) : Reader Char := do
  let n := numberOf 16 (← digits isHexDigit count)
  guard (n < 0xD800 || (0xDFFF < n && n < 0x110000))
  return Char.ofNat n

end Reader

end TestAccess
