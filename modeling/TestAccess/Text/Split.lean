import TestAccess.Text.Blank

/-!
# Pieces, words and lines

One splitter serves every cut of the program: `Chars.pieces p` cuts a text at
each character in `p` and keeps the empty pieces. Words are its non-empty
pieces at blanks, and the lines of a file are its pieces at line feeds, with
the conventions of text files about the last line and a carriage return in
front of the feed. A cut at the first or the last occurrence of a character
is a `takeWhile` from one side or the other.
-/

namespace TestAccess

namespace Chars

/-- **The pieces between the cuts.** The text is cut at each character in
`p`; a text with `n` such characters has `n + 1` pieces, some maybe empty. -/
def pieces (p : Char → Bool) : List Char → List (List Char)
  | [] => [[]]
  | c :: cs =>
    if p c then [] :: pieces p cs
    else
      match pieces p cs with
      | [] => [[c]]
      | w :: ws => (c :: w) :: ws

/-- A text always has a piece. -/
theorem pieces_ne_nil (p : Char → Bool) (cs : List Char) : pieces p cs ≠ [] := by
  cases cs with
  | nil => simp [pieces]
  | cons c cs =>
    simp only [pieces]
    split
    · simp
    · split <;> simp

/-- The pieces are those of the library. -/
theorem pieces_eq_splitOnP (p : Char → Bool) (cs : List Char) : pieces p cs = cs.splitOnP p := by
  induction cs with
  | nil => rfl
  | cons c cs ih =>
    rw [pieces, List.splitOnP_cons_eq_if_modifyHead, ← ih]
    split
    · rfl
    · obtain ⟨w, ws, hw⟩ := List.exists_cons_of_ne_nil (pieces_ne_nil p cs)
      rw [hw, List.modifyHead_cons]

/-- The pieces of a text are cut apart at each character of the class. -/
theorem pieces_append_cons {p : Char → Bool} {c : Char} (hc : p c = true)
    (as bs : List Char) : pieces p (as ++ c :: bs) = pieces p as ++ pieces p bs := by
  rw [pieces_eq_splitOnP, pieces_eq_splitOnP, pieces_eq_splitOnP, List.splitOnP_append_cons _ _ hc]

/-- The pieces of a text, without what it is cut at. -/
theorem flatten_pieces (p : Char → Bool) (cs : List Char) :
    (pieces p cs).flatten = cs.filter fun c => !p c := by
  induction cs with
  | nil => rfl
  | cons c cs ih =>
    obtain ⟨w, ws, hpieces⟩ := List.exists_cons_of_ne_nil (pieces_ne_nil p cs)
    rw [hpieces, List.flatten_cons] at ih
    rw [pieces, hpieces]
    cases hc : p c with
    | true =>
      rw [if_pos rfl, List.filter_cons_of_neg (by rw [hc]; decide), ← ih]
      rfl
    | false =>
      rw [if_neg Bool.false_ne_true, List.filter_cons_of_pos (by rw [hc]; rfl), ← ih]
      rfl

/-- The words of a text: its maximal runs of characters that are not blank. -/
def words (cs : List Char) : List (List Char) := (pieces isBlank cs).filter (· ≠ [])

/-- Joins texts with a separator in between. -/
def join (sep : List Char) : List (List Char) → List Char
  | [] => []
  | [w] => w
  | w :: ws => w ++ sep ++ join sep ws

/-- Texts are joined as in the library. -/
theorem join_eq_intercalate (sep : List Char) (ws : List (List Char)) :
    join sep ws = sep.intercalate ws := by
  induction ws with
  | nil => rfl
  | cons w ws ih =>
    cases ws with
    | nil => rw [join, List.intercalate_singleton]
    | cons v vs =>
      rw [List.intercalate_cons_cons, ← ih]
      rfl

/-- The words of a text with one space between neighbours. -/
def collapse (cs : List Char) : List Char := join [' '] (words cs)

/-- Drops one carriage return at the end. -/
def dropReturn (cs : List Char) : List Char :=
  match cs.reverse with
  | '\r' :: rest => rest.reverse
  | _ => cs

/-- The lines among the pieces at line feeds: every piece but the last was
ended by a feed, and loses a carriage return in front of it; the last one
counts only if it is not empty. -/
def endLines : List (List Char) → List (List Char)
  | [] => []
  | [w] => if w = [] then [] else [w]
  | w :: ws => dropReturn w :: endLines ws

/-- **The lines of a text.** A final line feed ends the last line and does
not open another. -/
def lines (cs : List Char) : List (List Char) := endLines (pieces (· == '\n') cs)

/-- The text in front of the first character in `p`, or all of it. -/
def before (p : Char → Bool) (cs : List Char) : List Char := cs.takeWhile fun c => !p c

/-- The text behind the last character in `p`, or all of it. -/
def afterLast (p : Char → Bool) (cs : List Char) : List Char :=
  (cs.reverse.takeWhile fun c => !p c).reverse

/-- Cuts at the first character in `p`, which belongs to neither side. -/
def splitFirst? (p : Char → Bool) : List Char → Option (List Char × List Char)
  | [] => none
  | c :: cs => if p c then some ([], cs) else (splitFirst? p cs).map fun s => (c :: s.1, s.2)

/-- The text behind a given beginning, if it begins so. -/
def dropPrefix? : List Char → List Char → Option (List Char)
  | [], cs => some cs
  | _ :: _, [] => none
  | a :: as, c :: cs => if a = c then dropPrefix? as cs else none

/-- The beginning of a text is dropped exactly where it is there. -/
theorem dropPrefix?_eq_some_iff (as cs back : List Char) :
    dropPrefix? as cs = some back ↔ cs = as ++ back := by
  induction as generalizing cs with
  | nil => rw [dropPrefix?, Option.some.injEq, List.nil_append]
  | cons a as ih =>
    cases cs with
    | nil => simp [dropPrefix?]
    | cons c cs =>
      rw [dropPrefix?, List.cons_append, List.cons_eq_cons]
      by_cases h : a = c
      · rw [if_pos h, ih]
        simp [h]
      · rw [if_neg h]
        simp [Ne.symm h]

end Chars

namespace Text

/-- The words of a text. -/
def words (s : String) : List String := (Chars.words s.toList).map String.ofList

/-- The words of a text with one space between neighbours. -/
def collapse (s : String) : String := String.ofList (Chars.collapse s.toList)

/-- The lines of a text. -/
def lines (s : String) : List String := (Chars.lines s.toList).map String.ofList

/-- Joins texts with a separator in between. -/
def join (sep : String) : List String → String
  | [] => ""
  | [w] => w
  | w :: ws => w ++ sep ++ join sep ws

/-- Whether a text ends in the given characters. -/
def endsIn (s : String) (ending : List Char) : Bool := ending.reverse.isPrefixOf s.toList.reverse

@[simp] theorem toList_collapse (s : String) :
    (collapse s).toList = Chars.collapse s.toList := by simp [collapse]

@[simp] theorem toList_join (sep : String) (ws : List String) :
    (join sep ws).toList = Chars.join sep.toList (ws.map String.toList) := by
  induction ws with
  | nil => rfl
  | cons w ws ih =>
    cases ws with
    | nil => rfl
    | cons v vs => simp_all [join, Chars.join, String.toList_append]

end Text

example : Text.words " a\tb  c " = ["a", "b", "c"] := by decide +kernel
example : Text.collapse " a\n  b " = "a b" := by decide +kernel
example : Text.lines "a\r\n\nb" = ["a", "", "b"] := by decide +kernel
example : Text.lines "a\n" = ["a"] := by decide +kernel
example : Text.lines "a\r" = ["a\r"] := by decide +kernel

end TestAccess
