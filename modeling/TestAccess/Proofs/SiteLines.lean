import TestAccess.Proofs.Rows
import TestAccess.Proofs.ScanOrder

/-!
# The line of a site

A site tells the number of the line on which its declaration begins and the
blanks that this line opens with. The number comes from counting the feeds in
front of the declaration. The blanks come from looking back for the last feed
and reading on from there, and that reading does not stop where the declaration
begins. Nothing in the one computation is used by the other, and they could
disagree at the ends of a source, next to a feed, or behind characters of
several bytes.

They do not, since both of them see the same cut of the source. The text in front
of a place consists of rows that have ended and of the beginning of one that has
not. The first are what is counted, and the second is where the reading begins,
so that the row of the place is the one with the counted number
(`exists_isOnRow`). A place is on one row only (`IsOnRow.unique`): a place right
in front of a feed is on the row that the feed ends, and a place right behind it
on the next. `sites_are_on_their_rows` says of every site of a scan that its
number and its indentation are those of the row of its declaration.
-/

namespace TestAccess

namespace Chars

/-! ## The row of a place -/

/-- **A place is on a row** with a number, counted from one: all rows in front
of it end at or in front of the place, and the row itself reaches up to it. -/
def IsOnRow (cs : List Char) (offset number : Nat) (row : List Char) : Prop :=
  ∃ before behind, rows cs = before ++ row :: behind ∧ before.length + 1 = number
    ∧ width (ended before) ≤ offset ∧ offset ≤ width (ended before) + width row

variable {cs : List Char} {offset number number' : Nat} {row row' : List Char}

/-- The number of a row is one of those that the rows have. -/
theorem IsOnRow.number_le (h : IsOnRow cs offset number row) : number ≤ (rows cs).length := by
  obtain ⟨before, behind, hrows, rfl, -⟩ := h
  rw [hrows, List.length_append, List.length_cons]
  omega

/-- A place is not on a row behind another one that it is on. -/
theorem IsOnRow.le (h : IsOnRow cs offset number row) (h' : IsOnRow cs offset number' row') :
    number ≤ number' := by
  obtain ⟨before, behind, hrows, rfl, hbegin, -⟩ := h
  obtain ⟨before', behind', hrows', rfl, -, hreach'⟩ := h'
  refine Nat.le_of_not_lt fun hlt => ?_
  -- the row that the place is on would have ended in front of it
  obtain ⟨between, hbetween⟩ : ∃ between, before = before' ++ row' :: between := by
    rcases List.append_eq_append_iff.mp (hrows.symm.trans hrows') with
      ⟨more, rfl, -⟩ | ⟨more, rfl, hmore⟩
    · rw [List.length_append] at hlt
      omega
    · cases more with
      | nil => simp at hlt
      | cons first between =>
        rw [List.cons_append, List.cons_eq_cons] at hmore
        exact ⟨between, by rw [hmore.1]⟩
  have hfeed : '\n'.utf8Size = 1 := rfl
  rw [hbetween, ended_append, ended_cons, width_append, width_append, width_cons, hfeed] at hbegin
  omega

/-- **A place is on one row only.** -/
theorem IsOnRow.unique (h : IsOnRow cs offset number row) (h' : IsOnRow cs offset number' row') :
    number = number' ∧ row = row' := by
  have hnumber : number = number' := Nat.le_antisymm (h.le h') (h'.le h)
  obtain ⟨before, behind, hrows, hlength, -⟩ := h
  obtain ⟨before', behind', hrows', hlength', -⟩ := h'
  obtain ⟨-, hrow⟩ := List.append_inj (hrows.symm.trans hrows') (by omega)
  exact ⟨hnumber, (List.cons_eq_cons.mp hrow).1⟩

/-! ## The blanks in front of a row -/

/-- **The indentation of a row** is its longest beginning of spaces and tabs. -/
structure IsIndentationOf (indentation row : List Char) : Prop where
  begins : indentation <+: row
  blank : ∀ c ∈ indentation, c = ' ' ∨ c = '\t'
  longest : ∀ other, other <+: row → (∀ c ∈ other, c = ' ' ∨ c = '\t') →
    other.length ≤ indentation.length

/-- The spaces and tabs that a row opens with are its indentation. -/
theorem isIndentationOf_takeWhile (row : List Char) :
    IsIndentationOf (row.takeWhile fun c => c = ' ' || c = '\t') row := by
  refine ⟨List.takeWhile_prefix _, fun c hc => ?_, ?_⟩
  · simpa using List.all_eq_true.mp List.all_takeWhile c hc
  · rintro other ⟨rest, rfl⟩ hother
    rw [List.takeWhile_append_of_pos (fun c hc => by simpa using hother c hc), List.length_append]
    omega

/-- What is read off the beginning of a text, up to a feed at most, is read off
its first row. -/
theorem takeWhile_first_row {q : Char → Bool} (hq : q '\n' = false) {first : List Char}
    {others : List (List Char)} (hrows : rows cs = first :: others) :
    cs.takeWhile q = first.takeWhile q := by
  rw [← join_rows cs, hrows]
  by_cases hothers : others = []
  · rw [hothers]
    rfl
  · rw [join_feed_cons _ hothers, List.takeWhile_append,
      List.takeWhile_cons_of_neg (by rw [hq]; exact Bool.false_ne_true), List.append_nil]
    split
    · rename_i hall
      exact ((List.takeWhile_prefix q).eq_of_length hall).symm
    · rfl

/-! ## Counting and looking back -/

/-- Looking back to the last feed gives the row that has not ended. -/
theorem takeWhile_reverse_ended_append {ls : List (List Char)} {l : List Char} (h : '\n' ∉ l) :
    (ended ls ++ l).reverse.takeWhile (· ≠ '\n') = l.reverse := by
  have hback : (ended ls).reverse.takeWhile (· ≠ '\n') = [] := by
    by_cases hls : ls = []
    · rw [hls]
      rfl
    · obtain ⟨front, hfront⟩ := List.getLast?_eq_some_iff.mp (getLast?_ended hls)
      rw [hfront, List.reverse_append, List.reverse_singleton, List.singleton_append,
        List.takeWhile_cons_of_neg (by simp)]
  have hfree : ∀ c ∈ l.reverse, (decide (c ≠ '\n')) = true := fun c hc =>
    decide_eq_true (ne_of_mem_of_not_mem (List.mem_reverse.mp hc) h)
  rw [List.reverse_append, List.takeWhile_append_of_pos hfree, hback, List.append_nil]

/-- **The counted row and the row that is read are the row of the place.** -/
theorem exists_isOnRow (h : isBoundary offset cs = true) :
    ∃ row, IsOnRow cs offset (lineAt cs offset + 1) row
      ∧ IsIndentationOf (indentationAt cs offset) row := by
  obtain ⟨front, rest, rfl, rfl⟩ := (isBoundary_iff offset cs).mp h
  obtain ⟨ls, l, rfl, hls, hl⟩ := exists_eq_ended_append front
  obtain ⟨first, others, hrest⟩ := List.exists_cons_of_ne_nil (rows_ne_nil rest)
  have hgoes : rows (l ++ rest) = (l ++ first) :: others := rows_append_of_not_mem hl hrest
  refine ⟨l ++ first, ⟨ls, others, ?_, ?_, ?_, ?_⟩, ?_⟩
  · rw [List.append_assoc, rows_ended_append hls, hgoes]
  · rw [lineAt, takeBytes_width, List.count_append, count_ended hls,
      List.count_eq_zero_of_not_mem hl, Nat.add_zero]
  · rw [width_append]
    omega
  · rw [width_append, width_append]
    omega
  · unfold indentationAt
    dsimp only
    rw [takeBytes_width, dropBytes_width, takeWhile_reverse_ended_append hl, List.reverse_reverse,
      takeWhile_first_row (by decide) hgoes]
    exact isIndentationOf_takeWhile _

end Chars

open Chars

/-- The number of a line is counted exactly where there are fewer lines than
its 32 bits can tell. -/
theorem Node.lineNumber_eq {source : List Char} (hrows : (rows source).length < UInt32.size - 1)
    {offset : Nat} (h : isBoundary offset source = true) :
    Node.lineNumber source offset = lineAt source offset + 1 := by
  obtain ⟨row, hrow, -⟩ := exists_isOnRow h
  have hle := hrow.number_le
  unfold Node.lineNumber
  omega

/-- **Two lines and some blanks describe where a range begins**: the range begins
on the row with the number of the first line, and on no other, the last line is
not in front of the first, and the blanks are the indentation of this same
row. -/
structure Span.Describes (source : List Char) (r : ByteRange) (span : Span)
    (indentation : List Char) : Prop where
  startLine_le_endLine : span.startLine ≤ span.endLine
  exists_row : ∃ row, (∀ number row', IsOnRow source r.start number row' ↔
      number = span.startLine ∧ row' = row)
    ∧ IsIndentationOf indentation row

/-- The row of a node is described, whatever its range. -/
theorem Node.describes_span {source : List Char} (hrows : (rows source).length < UInt32.size - 1)
    {n : Node} (h : n.range.IsProper source) :
    Span.Describes source n.range (n.span source) (indentationAt source n.range.start) := by
  obtain ⟨row, hrow, hindentation⟩ := exists_isOnRow h.isBoundary_start
  rw [← Node.lineNumber_eq hrows h.isBoundary_start] at hrow
  refine ⟨Node.lineNumber_mono _ h.start_le_stop, row, fun number row' => ?_, hindentation⟩
  constructor
  · exact fun h' => h'.unique hrow
  · rintro ⟨rfl, rfl⟩
    exact hrow

/-- **The sites of a scan are on their rows.** Let a source have fewer than
`2 ^ 32 - 1` rows. Where the range of a node is proper, the lines of the node and
the blanks that are read for it describe one and the same row, on which the node
begins. These are the lines and the blanks that a site of a scan has, so that
they describe the row on which its declaration begins. -/
theorem sites_are_on_their_rows (source : String)
    (hrows : (rows source.toList).length < UInt32.size - 1) :
    (∀ n : Node, n.range.IsProper source.toList →
        Span.Describes source.toList n.range (n.span source.toList)
          (indentationAt source.toList n.range.start))
      ∧ ∀ (marker : String) (root : Node), ∀ s ∈ root.scan source marker,
          s.declaration.IsProper source.toList →
            ∃ span, s.request.anchor.span = some span ∧ s.line = span.startLine
              ∧ Span.Describes source.toList s.declaration span s.indentation.toList := by
  refine ⟨fun n h => Node.describes_span hrows h, fun marker root s hs hproper => ?_⟩
  obtain ⟨o, -, hsite⟩ := (Node.mem_scan_iff ..).mp hs
  obtain ⟨-, a, -, rfl⟩ := (Node.Occurrence.site?_eq_some_iff ..).mp hsite
  refine ⟨o.node.span source.toList, rfl, rfl, ?_⟩
  rw [String.toList_ofList]
  exact Node.describes_span hrows hproper

/-- A declaration in the middle of its first row, behind characters of several
bytes. -/
def lateSource : String := "ü\n \té;@V func\nf"

/-- The declaration. -/
def lateDeclaration : Node :=
  .mk "function_declaration" ⟨8, 17⟩ true []
    [.mk "attribute" ⟨8, 10⟩ true [] [], .mk "func" ⟨11, 15⟩ false [] [],
      .mk "simple_identifier" ⟨16, 17⟩ true ["name"] []]

/-- The tree of the source. -/
def lateTree : Node := .mk "source_file" ⟨0, 17⟩ true [] [lateDeclaration]

/-- The declaration begins on the second row, and is indented like this row. -/
theorem sites_are_on_their_rows_lateTree :
    (rows lateSource.toList).length < UInt32.size - 1
      ∧ ∃ s ∈ lateTree.scan lateSource "V", s.declaration.IsProper lateSource.toList
          ∧ s.line = 2
          ∧ (∀ number row, IsOnRow lateSource.toList 8 number row ↔
              number = 2 ∧ row = " \té;@V func".toList)
          ∧ IsIndentationOf s.indentation.toList " \té;@V func".toList := by
  have hrows : (rows lateSource.toList).length < UInt32.size - 1 := by decide +kernel
  have hsome : ((⟨lateDeclaration, [lateTree]⟩ : Node.Occurrence).site? lateSource.toList
      "V").isSome = true := by
    decide +kernel
  obtain ⟨s, hs⟩ := Option.isSome_iff_exists.mp hsome
  have hscan : s ∈ lateTree.scan lateSource "V" := by
    refine (Node.mem_scan_iff ..).mpr ⟨_, ?_, hs⟩
    simp [Node.walk, Node.occurrences, Node.occurrencesOfAll, lateTree, lateDeclaration]
  have hdeclaration : s.declaration = ⟨8, 17⟩ := (Site.isOf_of_site? hs).declaration
  have hproper : s.declaration.IsProper lateSource.toList := by
    rw [hdeclaration]
    decide +kernel
  obtain ⟨span, -, hline, -, row, honly, hindentation⟩ :=
    (sites_are_on_their_rows lateSource hrows).2 "V" lateTree s hscan hproper
  rw [hdeclaration] at honly
  obtain ⟨hnumber, hrow⟩ := (honly 2 " \té;@V func".toList).mp
    ⟨["ü".toList], ["f".toList], by decide +kernel, rfl, by decide +kernel, by decide +kernel⟩
  rw [← hnumber] at hline honly
  rw [← hrow] at honly hindentation
  exact ⟨hrows, s, hscan, hproper, hline, honly, hindentation⟩

end TestAccess
