import TestAccess.Text.Offset
import TestAccess.Text.Split

/-!
# Splicing texts into a source

An insertion asks for two changes of a source: take the annotation out, and
put the rendered texts behind the declaration. Every change is an edit, a
range of the source with the text that replaces it. The edits are put in
order of their ranges and the source is copied with a cursor that only moves
forward; an edit that begins behind the cursor overlaps an earlier one and
fails the whole splice.

Taking out an annotation also takes out the blanks that follow it, so that
what comes next stands where the annotation stood.
-/

namespace TestAccess

/-- **The texts for one declaration**, and where they go. -/
structure Insertion where
  /-- The declaration; texts go behind its end. -/
  declaration : ByteRange
  /-- The annotation to take out, if it is to be taken out. -/
  marker : Option ByteRange := none
  /-- What every line of the texts is indented by. -/
  indentation : String := ""
  rendered : List String := []
deriving DecidableEq, Repr

/-- A range of the source and the text that replaces it. -/
structure Edit where
  range : ByteRange
  replacement : List Char
deriving DecidableEq, Repr

/-- **Why a splice fails.** -/
inductive SpliceError where
  | outside (range : ByteRange) (size : Nat)
  | splitsCharacter (range : ByteRange)
  | overlap (offset : Nat)
deriving DecidableEq, Repr

/-- A range in messages. -/
def ByteRange.text (r : ByteRange) : String := toString r.start ++ ".." ++ toString r.stop

/-- The message of a failure. -/
def SpliceError.message : SpliceError → String
  | .outside range size =>
    "Validation error: range " ++ range.text ++ " outside source of " ++ toString size ++ " bytes"
  | .splitsCharacter range => "Validation error: range " ++ range.text ++ " splits a character"
  | .overlap offset => "Validation error: overlapping edits at byte " ++ toString offset

/-! ## Ranges -/

/-- **What is wrong with a range**: it runs backwards or past the end, or one
of its ends is inside a character. -/
def ByteRange.error? (r : ByteRange) (source : List Char) : Option SpliceError :=
  if r.start > r.stop || r.stop > Chars.width source then
    some (.outside r (Chars.width source))
  else if !Chars.isBoundary r.start source || !Chars.isBoundary r.stop source then
    some (.splitsCharacter r)
  else none

namespace Insertion

/-- The ranges of an insertion, in the order in which they are checked. -/
def ranges (i : Insertion) : List ByteRange := i.declaration :: i.marker.toList

/-! ## Edits -/

/-- A line of a text with the indentation in front, unless it is empty. -/
def indentLine (indentation : List Char) (line : List Char) : List Char :=
  if line = [] then [] else indentation ++ line

/-- A text set off by an empty line, with its lines indented. -/
def textBlock (indentation : List Char) (text : List Char) : List Char :=
  ['\n', '\n'] ++ Chars.join ['\n'] ((Chars.lines text).map (indentLine indentation))

/-- **The block of an insertion**: its texts one behind the other. -/
def block (i : Insertion) : List Char :=
  i.rendered.flatMap fun text => textBlock i.indentation.toList text.toList

/-- The range that is taken out for an annotation: up to the next character
that is not blank. -/
def removal (source : List Char) (marker : ByteRange) : ByteRange :=
  { marker with
    stop := marker.stop +
      Chars.width ((Chars.dropBytes marker.stop source).takeWhile isBlank) }

/-- **The edits of an insertion.** -/
def edits (source : List Char) (i : Insertion) : List Edit :=
  (i.marker.toList.map fun a => { range := removal source a, replacement := [] }) ++
    if i.block = [] then []
    else [{ range := ⟨i.declaration.stop, i.declaration.stop⟩, replacement := i.block }]

end Insertion

namespace Edit

/-- The order of edits: by where they begin, then by where they end. -/
def precedes (a b : Edit) : Bool :=
  a.range.start < b.range.start ||
    (a.range.start == b.range.start && a.range.stop ≤ b.range.stop)

/-- **Copies a source through its edits.** `rest` is the source from `cursor`
on. -/
def applyFrom (cursor : Nat) (rest : List Char) : List Edit → Except SpliceError (List Char)
  | [] => .ok rest
  | e :: es =>
    if e.range.start < cursor then .error (.overlap e.range.start)
    else
      let kept := Chars.takeBytes (e.range.start - cursor) rest
      let following := Chars.dropBytes (e.range.stop - cursor) rest
      match applyFrom e.range.stop following es with
      | .ok output => .ok (kept ++ e.replacement ++ output)
      | .error err => .error err

end Edit

/-- **Applies insertions to a source.** All ranges are checked first, in the
order of the insertions; then the edits are applied in the order of their
ranges, those with equal ranges in the order of the insertions. -/
def splice (source : String) (insertions : List Insertion) : Except SpliceError String :=
  let chars := source.toList
  match (insertions.flatMap Insertion.ranges).findSome? fun r => r.error? chars with
  | some err => .error err
  | none =>
    let edits := (insertions.flatMap (Insertion.edits chars)).mergeSort Edit.precedes
    match Edit.applyFrom 0 chars edits with
    | .ok output => .ok (String.ofList output)
    | .error err => .error err

end TestAccess
