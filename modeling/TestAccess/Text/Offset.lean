import TestAccess.Text.Blank

/-!
# Byte offsets

Places in a source are byte offsets into its UTF-8 form, while the text itself
is a list of characters. This module is the bridge: the width of a text in
bytes, the cut of a text at an offset, and the test whether an offset falls
between two characters. A cut is defined for every number, so that reading a
range never fails; whether the range was a proper one is a separate question,
asked by `Chars.isBoundary`.
-/

namespace TestAccess

namespace Chars

/-- The width of a text in bytes. -/
def width : List Char → Nat
  | [] => 0
  | c :: cs => c.utf8Size + width cs

@[simp] theorem width_nil : width [] = 0 := rfl

@[simp] theorem width_cons (c : Char) (cs : List Char) :
    width (c :: cs) = c.utf8Size + width cs := rfl

@[simp] theorem width_append (as bs : List Char) : width (as ++ bs) = width as + width bs := by
  induction as with
  | nil => simp
  | cons a as ih => simp [ih, Nat.add_assoc]

/-- The characters that start before the given offset. -/
def takeBytes : Nat → List Char → List Char
  | _, [] => []
  | n, c :: cs => if n = 0 then [] else c :: takeBytes (n - c.utf8Size) cs

/-- The characters that start at or behind the given offset. -/
def dropBytes : Nat → List Char → List Char
  | _, [] => []
  | n, c :: cs => if n = 0 then c :: cs else dropBytes (n - c.utf8Size) cs

/-- **A cut loses nothing**: the two sides of an offset make up the text. -/
@[simp] theorem takeBytes_append_dropBytes (n : Nat) (cs : List Char) :
    takeBytes n cs ++ dropBytes n cs = cs := by
  induction cs generalizing n with
  | nil => rfl
  | cons c cs ih =>
    simp only [takeBytes, dropBytes]
    split
    · rfl
    · simp [ih]

@[simp] theorem takeBytes_zero (cs : List Char) : takeBytes 0 cs = [] := by
  cases cs <;> rfl

@[simp] theorem dropBytes_zero (cs : List Char) : dropBytes 0 cs = cs := by
  cases cs <;> rfl

/-- **An offset is a boundary** when it is the width of a beginning of the
text, so that no character lies on both of its sides. -/
def isBoundary : Nat → List Char → Bool
  | n, [] => n == 0
  | n, c :: cs => n == 0 || (c.utf8Size ≤ n && isBoundary (n - c.utf8Size) cs)

/-- The text between two offsets. -/
def slice (cs : List Char) (start stop : Nat) : List Char :=
  takeBytes (stop - start) (dropBytes start cs)

/-- The number of line feeds in front of an offset. -/
def lineAt (cs : List Char) (offset : Nat) : Nat := (takeBytes offset cs).count '\n'

/-- The spaces and tabs that open the line an offset lies on. -/
def indentationAt (cs : List Char) (offset : Nat) : List Char :=
  let reach := (takeBytes offset cs).reverse.takeWhile (· ≠ '\n')
  (reach.reverse ++ dropBytes offset cs).takeWhile fun c => c = ' ' || c = '\t'

end Chars

/-- **A half-open range of byte offsets.** -/
structure ByteRange where
  start : Nat
  stop : Nat
deriving DecidableEq, Repr

example : Chars.slice "aéb".toList 1 3 = ['é'] := by decide
example : Chars.isBoundary 2 "aéb".toList = false := by decide
example : Chars.isBoundary 4 "aéb".toList = true := by decide
example : Chars.indentationAt "x\n \ty".toList 4 = [' ', '\t'] := by decide

end TestAccess
