import TestAccess.Text.Offset
import TestAccess.Text.Split

/-!
# The rows of a text

The line feeds of a text cut it into rows. There is always a row, and any row
may be empty. Put together again, with a feed between neighbours, the rows are
the text (`join_rows`), and texts without a feed are the rows of what they are
put together to (`rows_join`). So the rows are the text in another form, and
this is what sets them apart from its lines (`Chars.lines`), where the last
feed and the carriage returns do not count. Of a text that holds no return and
does not end in a feed the rows are the lines (`lines_eq_rows`).

A place in a text is found on its rows by going through the rows that have
ended in front of it, each with its feed, and then into the row that has not
(`exists_eq_ended_append`).
-/

namespace TestAccess

namespace Chars

/-- **The rows of a text**: what stands between its line feeds. -/
def rows (cs : List Char) : List (List Char) := pieces (· == '\n') cs

/-- Rows that have ended: each of them with its feed. -/
def ended (ls : List (List Char)) : List Char := ls.flatMap fun l => l ++ ['\n']

variable {cs l : List Char} {ls : List (List Char)}

/-! ## Rows and texts -/

/-- The first of several texts has a feed behind it. -/
theorem join_feed_cons (l : List Char) (h : ls ≠ []) :
    join ['\n'] (l :: ls) = l ++ '\n' :: join ['\n'] ls := by
  rw [join_eq_intercalate, join_eq_intercalate, List.intercalate_cons_of_ne_nil h,
    List.append_assoc, List.singleton_append]

theorem rows_eq_splitOn (cs : List Char) : rows cs = cs.splitOn '\n' := by
  rw [rows, pieces_eq_splitOnP, List.splitOn_eq_splitOnP]

theorem rows_ne_nil (cs : List Char) : rows cs ≠ [] := pieces_ne_nil _ cs

/-- **The rows make up the text.** -/
theorem join_rows (cs : List Char) : join ['\n'] (rows cs) = cs := by
  rw [join_eq_intercalate, rows_eq_splitOn, List.intercalate_splitOn]

/-- **Texts without a feed are rows.** -/
theorem rows_join (h : ∀ l ∈ ls, '\n' ∉ l) (hne : ls ≠ []) : rows (join ['\n'] ls) = ls := by
  rw [join_eq_intercalate, rows_eq_splitOn, List.splitOn_intercalate _ h hne]

/-- What a row holds is in the text, and is no feed. -/
theorem mem_of_mem_rows (h : l ∈ rows cs) {c : Char} (hc : c ∈ l) : c ∈ cs ∧ c ≠ '\n' := by
  have hflatten : c ∈ (rows cs).flatten := List.mem_flatten_of_mem h hc
  rw [rows, flatten_pieces, List.mem_filter, Bool.not_eq_true', beq_eq_false_iff_ne] at hflatten
  exact hflatten

/-- A row holds no feed. -/
theorem not_mem_of_mem_rows (h : l ∈ rows cs) : '\n' ∉ l := fun hc => (mem_of_mem_rows h hc).2 rfl

/-- A text without a feed is its only row. -/
theorem rows_of_not_mem (h : '\n' ∉ l) : rows l = [l] := by
  rw [rows_eq_splitOn, List.splitOn_eq_singleton h]

/-- A feed holds rows apart. -/
theorem rows_append_cons (as bs : List Char) : rows (as ++ '\n' :: bs) = rows as ++ rows bs :=
  pieces_append_cons (by decide) as bs

/-! ## Rows that have ended -/

@[simp] theorem ended_nil : ended [] = [] := rfl

theorem ended_cons (l : List Char) (ls : List (List Char)) :
    ended (l :: ls) = l ++ '\n' :: ended ls := by
  rw [ended, List.flatMap_cons, List.append_assoc]
  rfl

theorem ended_append (ks ls : List (List Char)) : ended (ks ++ ls) = ended ks ++ ended ls :=
  List.flatMap_append

/-- Texts put together are rows that have ended, and one that has not. -/
theorem join_concat (ls : List (List Char)) (l : List Char) :
    join ['\n'] (ls ++ [l]) = ended ls ++ l := by
  induction ls with
  | nil => rfl
  | cons k ls ih =>
    rw [List.cons_append, join_feed_cons k (by simp), ih, ended_cons, List.append_assoc,
      List.cons_append]

/-- **A text ends on a row**, and all rows in front of it have ended. -/
theorem exists_eq_ended_append (cs : List Char) :
    ∃ ls l, cs = ended ls ++ l ∧ (∀ k ∈ ls, '\n' ∉ k) ∧ '\n' ∉ l := by
  obtain ⟨ls, l, hrows⟩ := (List.eq_nil_or_concat (rows cs)).resolve_left (rows_ne_nil cs)
  rw [List.concat_eq_append] at hrows
  have hfree : ∀ k ∈ ls ++ [l], '\n' ∉ k := fun k hk => not_mem_of_mem_rows (hrows ▸ hk)
  refine ⟨ls, l, ?_, fun k hk => hfree k (List.mem_append_left _ hk), hfree l (by simp)⟩
  rw [← join_concat, ← hrows, join_rows]

/-- Rows that have ended are rows of the text. -/
theorem rows_ended_append (h : ∀ k ∈ ls, '\n' ∉ k) (cs : List Char) :
    rows (ended ls ++ cs) = ls ++ rows cs := by
  induction ls with
  | nil => rfl
  | cons k ls ih =>
    obtain ⟨hk, hls⟩ := List.forall_mem_cons.mp h
    rw [ended_cons, List.append_assoc, List.cons_append, rows_append_cons, rows_of_not_mem hk,
      ih hls, List.singleton_append, List.cons_append]

/-- A row that has not ended goes on in the text behind it. -/
theorem rows_append_of_not_mem (h : '\n' ∉ l) {first : List Char} {others : List (List Char)}
    (hrows : rows cs = first :: others) : rows (l ++ cs) = (l ++ first) :: others := by
  have hfree : ∀ k ∈ first :: others, '\n' ∉ k := fun k hk => not_mem_of_mem_rows (hrows ▸ hk)
  have hjoin : l ++ cs = join ['\n'] ((l ++ first) :: others) := by
    rw [← join_rows cs, hrows]
    by_cases hothers : others = []
    · rw [hothers]
      rfl
    · rw [join_feed_cons _ hothers, join_feed_cons _ hothers, List.append_assoc]
  rw [hjoin, rows_join ?_ (List.cons_ne_nil _ _)]
  obtain ⟨hfirst, hothers⟩ := List.forall_mem_cons.mp hfree
  exact List.forall_mem_cons.mpr ⟨by simp [h, hfirst], hothers⟩

/-- The feeds of rows that have ended. -/
theorem count_ended (h : ∀ k ∈ ls, '\n' ∉ k) : (ended ls).count '\n' = ls.length := by
  induction ls with
  | nil => rfl
  | cons k ls ih =>
    obtain ⟨hk, hls⟩ := List.forall_mem_cons.mp h
    rw [ended_cons, List.count_append, List.count_eq_zero_of_not_mem hk, List.count_cons_self,
      ih hls, List.length_cons, Nat.zero_add]

/-- Rows that have ended end in a feed. -/
theorem getLast?_ended (h : ls ≠ []) : (ended ls).getLast? = some '\n' := by
  obtain ⟨ls, l, rfl⟩ := (List.eq_nil_or_concat ls).resolve_left h
  rw [List.concat_eq_append, ended_append, ended_cons, ended_nil, ← List.append_assoc,
    List.getLast?_concat]

/-! ## Rows and lines -/

/-- Where no return stands and the last row is not empty, every row is a line. -/
theorem endLines_eq_self (hreturn : ∀ l ∈ ls, '\r' ∉ l) (hlast : ls.getLast? ≠ some []) :
    endLines ls = ls := by
  induction ls with
  | nil => rfl
  | cons l ls ih =>
    obtain ⟨hl, hls⟩ := List.forall_mem_cons.mp hreturn
    cases ls with
    | nil => rw [endLines, if_neg (by simpa using hlast)]
    | cons k ls =>
      have hkept : dropReturn l = l := by
        unfold dropReturn
        split
        · rename_i rest hreverse
          exact absurd (List.mem_reverse.mp (hreverse ▸ List.mem_cons_self)) hl
        · rfl
      rw [endLines, hkept, ih hls (by simpa using hlast)]
      exact List.cons_ne_nil _ _

/-- **The rows of a text are its lines** if it holds no return and does not end
in a feed. Only of the empty text there is a row and no line. -/
theorem lines_eq_rows (hne : cs ≠ []) (hreturn : '\r' ∉ cs) (hend : cs.getLast? ≠ some '\n') :
    lines cs = rows cs := by
  refine endLines_eq_self (fun l hl hr => hreturn (mem_of_mem_rows hl hr).1) fun hlast => ?_
  obtain ⟨ls, hrows⟩ := List.getLast?_eq_some_iff.mp hlast
  have hcs : cs = ended ls := by
    rw [← join_rows cs, rows, hrows, join_concat, List.append_nil]
  by_cases hls : ls = []
  · exact hne (by rw [hcs, hls]; rfl)
  · exact hend (by rw [hcs, getLast?_ended hls])

end Chars

end TestAccess
