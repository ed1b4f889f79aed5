import TestAccess.Proofs.Rows
import TestAccess.Splice
import Mathlib.Data.List.Forall2

/-!
# A text can be read back from its block

The texts of an insertion go into the source as one block. Every text is set off
by an empty line, and its lines are indented, except those that are empty. Two
things might get lost on the way. A text is taken apart into lines, which is to
forget about its last feed and its carriage returns, and a line of a block does
not say how much of the blanks in front of it is indentation.

Neither happens to a text that holds no return and does not end in a feed. Its
lines are its rows, and so are the lines of what is written for it, since an
indentation holds no feed (`rows_indented`). An empty row can only be that of an
empty line, and any other row has the indentation in front, with all the blanks
of the line behind it. `block_is_lossless` says this of all texts of an
insertion: the block is what is written for them, one behind the other, and each
of them can be read back.
-/

namespace TestAccess

namespace Insertion

open Chars

variable {indentation text : List Char}

/-! ## Taking the indentation away -/

/-- A line of a block without the indentation. -/
def outdentLine (indentation line : List Char) : List Char :=
  if line = [] then [] else (dropPrefix? indentation line).getD line

/-- **A text read back** from what is written for it. -/
def outdent (indentation written : List Char) : List Char :=
  join ['\n'] ((rows written).map (outdentLine indentation))

/-- A line is read back, however it begins. -/
theorem outdentLine_indentLine (indentation line : List Char) :
    outdentLine indentation (indentLine indentation line) = line := by
  unfold indentLine
  by_cases hline : line = []
  · rw [if_pos hline, outdentLine, if_pos rfl, hline]
  · have hdrop : dropPrefix? indentation (indentation ++ line) = some line :=
      (dropPrefix?_eq_some_iff ..).mpr rfl
    rw [if_neg hline, outdentLine, if_neg (by simp [hline]), hdrop, Option.getD_some]

/-- An indented line holds a feed only if the indentation or the line does. -/
theorem not_mem_indentLine {line : List Char} (hindentation : '\n' ∉ indentation)
    (hline : '\n' ∉ line) : '\n' ∉ indentLine indentation line := by
  unfold indentLine
  split
  · exact List.not_mem_nil
  · exact fun hmem => (List.mem_append.mp hmem).elim hindentation hline

/-! ## What is written for a text -/

/-- The text with its rows indented. -/
def indented (indentation text : List Char) : List Char :=
  join ['\n'] ((rows text).map (indentLine indentation))

/-- **The rows of what is written** are those of the text, each indented. -/
theorem rows_indented (h : '\n' ∉ indentation) (text : List Char) :
    rows (indented indentation text) = (rows text).map (indentLine indentation) := by
  refine rows_join (fun l hl => ?_) (by simp [rows_ne_nil])
  obtain ⟨line, hline, rfl⟩ := List.mem_map.mp hl
  exact not_mem_indentLine h (not_mem_of_mem_rows hline)

/-- **The text is read back.** -/
theorem outdent_indented (h : '\n' ∉ indentation) (text : List Char) :
    outdent indentation (indented indentation text) = text := by
  have hlines : outdentLine indentation ∘ indentLine indentation = id :=
    funext fun line => outdentLine_indentLine indentation line
  rw [outdent, rows_indented h, List.map_map, hlines, List.map_id, join_rows]

/-- What stands behind the empty line in the block of a text. -/
theorem textBlock_eq (hreturn : '\r' ∉ text) (hend : text.getLast? ≠ some '\n') :
    textBlock indentation text = '\n' :: '\n' :: indented indentation text := by
  by_cases hne : text = []
  · -- no line and one empty row come to the same
    rw [hne]
    rfl
  · rw [textBlock, lines_eq_rows hne hreturn hend]
    rfl

/-- **What is written for a text is a faithful copy of it**, indented: its lines
are those of the text, an empty line is left empty, every other line opens with
the indentation, and without it the text is back. -/
structure IsIndented (indentation text written : List Char) : Prop where
  empty_iff : List.Forall₂ (fun line copy => line = [] ↔ copy = []) (rows text) (rows written)
  opens : ∀ copy ∈ rows written, copy ≠ [] → indentation <+: copy
  outdent : outdent indentation written = text

theorem isIndented_indented (h : '\n' ∉ indentation) (text : List Char) :
    IsIndented indentation text (indented indentation text) := by
  refine ⟨?_, fun copy hcopy hne => ?_, outdent_indented h text⟩
  · rw [rows_indented h, List.forall₂_map_right_iff, List.forall₂_same]
    intro line _
    unfold indentLine
    split
    · simp [*]
    · simp [*]
  · rw [rows_indented h] at hcopy
    obtain ⟨line, -, rfl⟩ := List.mem_map.mp hcopy
    unfold indentLine at hne ⊢
    split
    · rename_i hline
      exact absurd (if_pos hline) hne
    · exact List.prefix_append ..

/-- **Nothing is lost in a block.** Let an indentation be of spaces and tabs, and
let no text of an insertion hold a carriage return or end in a line feed. The
block of the insertion is what is written for its texts, in their order, each
set off by an empty line; and what is written for a text is a faithful copy of
it, indented. -/
theorem block_is_lossless (i : Insertion)
    (hindentation : ∀ c ∈ i.indentation.toList, c = ' ' ∨ c = '\t')
    (htexts : ∀ text ∈ i.rendered, '\r' ∉ text.toList ∧ text.toList.getLast? ≠ some '\n') :
    ∃ written : List (List Char),
      i.block = written.flatMap (fun copy => '\n' :: '\n' :: copy)
        ∧ List.Forall₂ (fun text copy => IsIndented i.indentation.toList text.toList copy)
            i.rendered written := by
  have hfeed : '\n' ∉ i.indentation.toList := fun hmem => by
    rcases hindentation _ hmem with h | h
    · exact absurd h (by decide)
    · exact absurd h (by decide)
  refine ⟨i.rendered.map fun text => indented i.indentation.toList text.toList, ?_, ?_⟩
  · rw [block, List.flatMap_map]
    refine List.flatMap_congr fun text htext => ?_
    exact textBlock_eq (htexts text htext).1 (htexts text htext).2
  · rw [List.forall₂_map_right_iff, List.forall₂_same]
    exact fun text _ => isIndented_indented hfeed text.toList

/-- A text with an empty line, a line of blanks, and a line that opens with the
indentation already; an empty text; and a text that opens with empty lines. -/
def layeredInsertion : Insertion where
  declaration := ⟨0, 0⟩
  indentation := " \t"
  rendered := ["a\n \tb\n\n  \n)", "", "\n\nc"]

/-- Each of the three texts is read back. -/
theorem block_is_lossless_layeredInsertion :
    (∀ c ∈ layeredInsertion.indentation.toList, c = ' ' ∨ c = '\t')
      ∧ (∀ text ∈ layeredInsertion.rendered,
          '\r' ∉ text.toList ∧ text.toList.getLast? ≠ some '\n')
      ∧ ∃ written : List (List Char),
          "\n\n \ta\n \t \tb\n\n \t  \n \t)\n\n\n\n\n\n \tc".toList
              = written.flatMap (fun copy => '\n' :: '\n' :: copy)
            ∧ List.Forall₂ (fun text copy => IsIndented " \t".toList text.toList copy)
                ["a\n \tb\n\n  \n)", "", "\n\nc"] written := by
  have hindentation : ∀ c ∈ layeredInsertion.indentation.toList, c = ' ' ∨ c = '\t' := by
    simp [layeredInsertion]
  have htexts : ∀ text ∈ layeredInsertion.rendered,
      '\r' ∉ text.toList ∧ text.toList.getLast? ≠ some '\n' := by
    decide +kernel
  obtain ⟨written, hblock, hwritten⟩ := block_is_lossless layeredInsertion hindentation htexts
  refine ⟨hindentation, htexts, written, ?_, hwritten⟩
  rw [← hblock]
  decide +kernel

end Insertion

end TestAccess
