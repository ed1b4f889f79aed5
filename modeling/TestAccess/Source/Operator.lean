import TestAccess.Source.Piece

/-!
# Operators

An operator is a run of symbols with nothing between them. What it does where
an operand has ended – reach for a member, mark the operand, open a
conditional or a range, assign, or simply join two operands – is told from its
characters, and so is whether it continues a statement on the next line.

The operators of the language itself are listed. Any other run of symbols is
an operator that a program has declared; such an operator joins two operands,
also when there is a line break before it.
-/

namespace TestAccess.Source

/-- The symbols glued to the front of some pieces that belong to one operator.
A dot belongs to an operator only if the operator opens with one. -/
def gluedSymbols (dotted : Bool) : List Piece → List Char
  | [] => []
  | p :: ps =>
    match p.symbol? with
    | some c =>
      if p.isGlued && (isOperator c || (dotted && c == '.')) then c :: gluedSymbols dotted ps
      else []
    | none => []

/-- **The operator at the front**, empty if there is none. -/
def operatorAt : List Piece → List Char
  | [] => []
  | p :: ps =>
    match p.symbol? with
    | some c => if isOperator c || c == '.' then c :: gluedSymbols (c == '.') ps else []
    | none => []

/-- What an operator does where an operand has ended. -/
inductive OperatorRole where
  /-- A member follows. -/
  | member
  /-- The operand is marked and remains an operand. -/
  | mark
  /-- The first half of a conditional follows. -/
  | conditional
  /-- The end of a range follows; it may be missing if the range is open. -/
  | range (isOpen : Bool)
  | assignment
  /-- A second operand follows. -/
  | joining
deriving DecidableEq, Repr

/-- **The role of an operator**; `glued` says whether it is glued to the
operand. -/
def OperatorRole.of (operator : List Char) (glued : Bool) : OperatorRole :=
  match String.ofList operator with
  | "." => .member
  | "?" => if glued then .mark else .conditional
  | "!" | "++" | "--" => .mark
  | "..." => .range true
  | "..<" => .range false
  | "=" | "+=" | "-=" | "*=" | "/=" | "%=" => .assignment
  | _ => .joining

/-- Operators of the language that may also open a statement of their own. -/
def openingOperators : List String := ["!", "&", "~", "++", "--", "..", "...", "..<"]

/-- **Whether an operator at the start of a line continues the statement**
before it. `aside` says whether comments on lines of their own stand before it
and `spaced` whether a gap follows it. -/
def continuesLine (operator : List Char) (aside spaced : Bool) : Bool :=
  match String.ofList operator with
  | "?" => !aside
  | "+" | "-" | "/" => spaced
  | text => !openingOperators.contains text

/-- Whether a gap or nothing follows so many pieces. -/
def gapFollows (count : Nat) (ps : List Piece) : Bool :=
  match ps.drop count with
  | p :: _ => !p.isGlued
  | [] => true

example : OperatorRole.of "?".toList true = .mark := by decide
example : OperatorRole.of "??".toList true = .joining := by decide
example : continuesLine "-".toList false false = false := by decide

end TestAccess.Source
