/-!
# Blank characters and trimming

Every rule of the program that speaks of white space means the same set, the
characters with the Unicode property `White_Space`. The set is small and has
been stable for a long time, so it is written out as a predicate; the
zero-width space and the byte order mark are *not* in it.

Text is processed as a list of characters, the form that recursion and proofs
can see through, and the functions on `String` are the same functions seen
through `String.toList`.
-/

namespace TestAccess

/-- **A character is blank** when it has the property `White_Space`: the
controls from tab to carriage return, the space, the next-line control, and
the typographic spaces and separators. -/
def isBlank (c : Char) : Bool :=
  let n := c.toNat
  (0x09 ≤ n && n ≤ 0x0D) || n == 0x20 || n == 0x85 || n == 0xA0 || n == 0x1680 ||
    (0x2000 ≤ n && n ≤ 0x200A) || n == 0x2028 || n == 0x2029 || n == 0x202F ||
    n == 0x205F || n == 0x3000

example : (" \t\n\r\x0b\x0c".toList.all isBlank) = true := by decide
example : ("a_@.\u200b\ufeff".toList.any isBlank) = false := by decide

namespace Chars

/-- Drops the longest run of characters in `p` from the end. -/
def dropEndWhile (p : Char → Bool) (cs : List Char) : List Char :=
  (cs.reverse.dropWhile p).reverse

/-- Drops the blanks in front. -/
def trimStart (cs : List Char) : List Char := cs.dropWhile isBlank

/-- Drops the blanks at the end. -/
def trimEnd (cs : List Char) : List Char := dropEndWhile isBlank cs

/-- Drops the blanks on both sides. -/
def trim (cs : List Char) : List Char := trimEnd (trimStart cs)

@[simp] theorem dropEndWhile_nil (p : Char → Bool) : dropEndWhile p [] = [] := rfl

@[simp] theorem trimStart_nil : trimStart [] = [] := rfl

@[simp] theorem trim_nil : trim [] = [] := rfl

end Chars

namespace Text

/-- The text without the blanks in front. -/
def trimStart (s : String) : String := String.ofList (Chars.trimStart s.toList)

/-- The text without the blanks at its end. -/
def trimEnd (s : String) : String := String.ofList (Chars.trimEnd s.toList)

/-- The text without the blanks on either side. -/
def trim (s : String) : String := String.ofList (Chars.trim s.toList)

@[simp] theorem toList_trimStart (s : String) :
    (trimStart s).toList = Chars.trimStart s.toList := by simp [trimStart]

@[simp] theorem toList_trimEnd (s : String) :
    (trimEnd s).toList = Chars.trimEnd s.toList := by simp [trimEnd]

@[simp] theorem toList_trim (s : String) : (trim s).toList = Chars.trim s.toList := by
  simp [trim]

end Text

end TestAccess
