import TestAccess.Rendering

/-!
# The words of an accessor do not depend on its layout

A rendering lays an accessor out over several lines or on one. Swift does not
care: what it reads are tokens, and blanks only hold them apart. This module
shows that the layouts differ in blanks alone, whatever the texts are that an
accessor is made of. The words of a rendered accessor, that is, its runs of
characters that are not blank, are those of `Accessor.words`, which knows of no
layout and of no width (`words_renderAll`).

Everything rests on one law: the words of two texts with a blank in between are
the words of the one and then those of the other (`words_append_cons`). A text
may itself hold blanks, or be empty, or glue to the word in front of it; the
law does not mind, since all that a layout changes are the blanks that are
already there.
-/

namespace TestAccess

/-! ## Words and blanks -/

namespace Chars

/-- **A blank holds words apart**: the words on its two sides are the words of
the text. -/
theorem words_append_cons {c : Char} (hc : isBlank c = true) (as bs : List Char) :
    words (as ++ c :: bs) = words as ++ words bs := by
  unfold words
  rw [pieces_append_cons hc, List.filter_append]

@[simp] theorem words_nil : words [] = [] := rfl

/-- Blanks in front of a text belong to no word. -/
theorem words_append_of_blank {blanks : List Char} (h : ∀ c ∈ blanks, isBlank c = true)
    (cs : List Char) : words (blanks ++ cs) = words cs := by
  induction blanks with
  | nil => rw [List.nil_append]
  | cons c blanks ih =>
    obtain ⟨hc, h⟩ := List.forall_mem_cons.mp h
    rw [List.cons_append, ← List.nil_append (c :: (blanks ++ cs)), words_append_cons hc, ih h,
      words_nil, List.nil_append]

/-- **A separator**: at least one blank, and nothing else. -/
def IsSeparator (sep : List Char) : Prop := sep ≠ [] ∧ ∀ c ∈ sep, isBlank c = true

/-- A separator holds words apart. -/
theorem words_append_append {sep : List Char} (h : IsSeparator sep) (as bs : List Char) :
    words (as ++ sep ++ bs) = words as ++ words bs := by
  obtain ⟨c, blanks, rfl⟩ := List.exists_cons_of_ne_nil h.1
  obtain ⟨hc, hblanks⟩ := List.forall_mem_cons.mp h.2
  rw [List.append_assoc, List.cons_append, words_append_cons hc,
    words_append_of_blank hblanks]

/-- Texts joined by a separator have the words of each of them. -/
theorem words_join {sep : List Char} (h : IsSeparator sep) (ws : List (List Char)) :
    words (join sep ws) = ws.flatMap words := by
  induction ws with
  | nil => rfl
  | cons w ws ih =>
    cases ws with
    | nil => rw [join, List.flatMap_singleton]
    | cons v vs =>
      show words (w ++ sep ++ join sep (v :: vs)) = words w ++ (v :: vs).flatMap words
      rw [words_append_append h, ih]

/-- Texts joined by nothing are one behind the other. -/
theorem join_nil (ws : List (List Char)) : join [] ws = ws.flatten := by
  induction ws with
  | nil => rfl
  | cons w ws ih =>
    cases ws with
    | nil => rw [join, List.flatten_singleton]
    | cons v vs =>
      show w ++ [] ++ join [] (v :: vs) = w ++ (v :: vs).flatten
      rw [List.append_nil, ih]

/-- The words of a text with other texts behind it, each behind a blank. -/
theorem words_append_flatMap_cons {c : Char} (hc : isBlank c = true) (as : List Char)
    (ts : List (List Char)) :
    words (as ++ ts.flatMap (fun t => c :: t)) = words as ++ ts.flatMap words := by
  induction ts generalizing as with
  | nil => rw [List.flatMap_nil, List.flatMap_nil, List.append_nil, List.append_nil]
  | cons t ts ih =>
    rw [List.flatMap_cons, List.flatMap_cons, List.cons_append, words_append_cons hc, ih]

/-- The words of lines: each is indented and ended by a blank, and more text
follows. -/
theorem words_flatMap_append {c : Char} (hc : isBlank c = true) {indent : List Char}
    (hindent : ∀ d ∈ indent, isBlank d = true) (ts : List (List Char)) (bs : List Char) :
    words (ts.flatMap (fun t => indent ++ t ++ [c]) ++ bs) = ts.flatMap words ++ words bs := by
  induction ts with
  | nil => rfl
  | cons t ts ih =>
    rw [List.flatMap_cons, List.flatMap_cons, List.append_assoc, List.append_assoc (indent ++ t),
      List.singleton_append, words_append_cons hc, words_append_of_blank hindent, ih,
      List.append_assoc]

end Chars

namespace Text

/-- Texts joined by a separator have the words of each of them. -/
theorem words_join {sep : String} (h : Chars.IsSeparator sep.toList) (ws : List String) :
    words (join sep ws) = ws.flatMap words := by
  unfold words
  rw [toList_join, Chars.words_join h, List.flatMap_map, List.map_flatMap]

/-- A separator holds words apart. -/
theorem words_append_append {sep : String} (h : Chars.IsSeparator sep.toList) (a b : String) :
    words (a ++ sep ++ b) = words a ++ words b := by
  unfold words
  rw [String.toList_append, String.toList_append, Chars.words_append_append h, List.map_append]

end Text

/-! ## Blocks -/

namespace Rendering

/-- An indentation is blank. -/
theorem isBlank_of_mem_indent (r : Rendering) (level : Nat) :
    ∀ c ∈ (r.indent level).toList, isBlank c = true := by
  intro c hc
  rw [indent, String.toList_ofList] at hc
  rw [List.eq_of_mem_replicate hc]
  rfl

/-- The characters of a block on one line. -/
theorem toList_block_of_compact {r : Rendering} (h : r.layout = .compact) (level : Nat)
    (header : String) (items : List String) :
    (r.block level header items).toList
      = header.toList ++ ' ' :: ((['\x7b'] ++ (items.map String.toList).flatMap (fun t => ' ' :: t))
          ++ ' ' :: ['\x7d']) := by
  unfold block
  rw [h]
  simp only [String.toList_append, Text.toList_join, List.map_map]
  rw [show "".toList = [] from rfl, Chars.join_nil, ← List.flatMap_def, List.flatMap_map]
  simp [Function.comp_def]

/-- The characters of a block over several lines. -/
theorem toList_block_of_expanded {r : Rendering} (h : r.layout = .expanded) (level : Nat)
    (header : String) (items : List String) :
    (r.block level header items).toList
      = header.toList ++ ' ' :: (['\x7b'] ++ '\n' ::
          ((items.map String.toList).flatMap
              (fun t => (r.indent (level + 1)).toList ++ t ++ ['\n'])
            ++ ((r.indent level).toList ++ ['\x7d']))) := by
  unfold block
  rw [h]
  simp only [String.toList_append, Text.toList_join, List.map_map]
  rw [show "".toList = [] from rfl, Chars.join_nil, ← List.flatMap_def, List.flatMap_map]
  simp [Function.comp_def]

/-- **The words of a block** are those of its header and of its items, with
the braces around the items, in every layout. -/
theorem words_block (r : Rendering) (level : Nat) (header : String) (items : List String) :
    Text.words (r.block level header items)
      = Text.words header ++ "\x7b" :: (items.flatMap Text.words ++ ["\x7d"]) := by
  -- in each layout a blank stands in front of the braces and around every item
  have hchars : Chars.words (r.block level header items).toList
      = Chars.words header.toList
        ++ ['\x7b'] :: ((items.map String.toList).flatMap Chars.words ++ [['\x7d']]) := by
    cases hlayout : r.layout with
    | compact =>
      rw [toList_block_of_compact hlayout, Chars.words_append_cons rfl,
        Chars.words_append_cons rfl, Chars.words_append_flatMap_cons rfl]
      rfl
    | expanded =>
      rw [toList_block_of_expanded hlayout, Chars.words_append_cons rfl,
        Chars.words_append_cons rfl,
        Chars.words_flatMap_append rfl (isBlank_of_mem_indent r (level + 1)),
        Chars.words_append_of_blank (isBlank_of_mem_indent r level)]
      rfl
  unfold Text.words
  rw [hchars, List.map_append, List.map_cons, List.map_append, List.flatMap_map, List.map_flatMap]
  rfl

end Rendering

/-! ## Accessors -/

/-- The words of the block in which a member is read or assigned. -/
def AccessorProperty.clauseWords (keyword text : String) : List String :=
  keyword :: "\x7b" :: (Text.words text ++ ["\x7d"])

/-- **The words of an accessor without its attributes**, in no layout. -/
def AccessorKind.words : AccessorKind → List String
  | .property p =>
    Text.words (Rendering.propertyHeader p) ++ "\x7b" ::
      (AccessorProperty.clauseWords "get" p.target
        ++ (if p.settable then AccessorProperty.clauseWords "set" (p.target ++ " = newValue")
            else [])
        ++ ["\x7d"])
  | .function f =>
    Text.words (Rendering.functionHeader f)
      ++ "\x7b" :: (Text.words (Rendering.call f.body) ++ ["\x7d"])

/-- **The words of an accessor**, in no layout. -/
def Accessor.words (a : Accessor) : List String :=
  a.attributes.flatMap Text.words ++ a.kind.words

namespace Rendering

/-- The body of an accessor has its words. -/
theorem words_body (r : Rendering) (k : AccessorKind) : Text.words (r.body k) = k.words := by
  cases k with
  | property p =>
    have hclause : ∀ keyword text : String, Text.words keyword = [keyword] →
        Text.words (r.block 1 keyword [text]) = AccessorProperty.clauseWords keyword text := by
      intro keyword text hkeyword
      rw [words_block, hkeyword, List.flatMap_singleton]
      rfl
    show Text.words (r.property p) = _
    unfold property AccessorKind.words
    dsimp only
    rw [words_block]
    split
    · rw [List.flatMap_cons, List.flatMap_singleton, hclause "get" _ (by decide +kernel),
        hclause "set" _ (by decide +kernel)]
    · rw [List.flatMap_singleton, hclause "get" _ (by decide +kernel), List.append_nil]
  | function f =>
    show Text.words (r.function f) = _
    unfold function AccessorKind.words
    rw [words_block, List.flatMap_singleton]

/-- What stands behind an attribute is a separator. -/
theorem isSeparator_attributeSeparator (r : Rendering) :
    Chars.IsSeparator r.attributeSeparator.toList := by
  unfold attributeSeparator
  cases r.layout with
  | expanded => exact ⟨by decide, List.all_eq_true.mp (by decide)⟩
  | compact => exact ⟨by decide, List.all_eq_true.mp (by decide)⟩

/-- What stands between two accessors is a separator. -/
theorem isSeparator_accessorSeparator (r : Rendering) :
    Chars.IsSeparator r.accessorSeparator.toList := by
  unfold accessorSeparator
  cases r.layout with
  | expanded => exact ⟨by decide, List.all_eq_true.mp (by decide)⟩
  | compact => exact ⟨by decide, List.all_eq_true.mp (by decide)⟩

/-- An accessor has its words, attributes first. -/
theorem words_render (r : Rendering) (a : Accessor) : Text.words (r.render a) = a.words := by
  unfold render Accessor.words
  split
  · rename_i h
    rw [List.isEmpty_iff.mp h, words_body]
    rfl
  · rw [Text.words_append_append r.isSeparator_attributeSeparator,
      Text.words_join r.isSeparator_attributeSeparator, words_body]

/-- **The words of rendered accessors** are those of each of them, in every
layout and for every width of the indentation. -/
theorem words_renderAll (r : Rendering) (accessors : List Accessor) :
    Text.words (r.renderAll accessors) = accessors.flatMap Accessor.words := by
  unfold renderAll
  rw [Text.words_join r.isSeparator_accessorSeparator, List.flatMap_map]
  exact congrArg (fun f => accessors.flatMap f) (funext (words_render r))

/-- **The two layouts have the same words.** Accessors laid out over several
lines and on one line are the same list of words, whatever their texts and the
two widths of the indentation are. -/
theorem words_expanded_eq_words_compact (accessors : List Accessor) (w w' : Nat) :
    Text.words (({ layout := .expanded, indentWidth := w } : Rendering).renderAll accessors)
      = Text.words
          (({ layout := .compact, indentWidth := w' } : Rendering).renderAll accessors) := by
  rw [words_renderAll, words_renderAll]

end Rendering

end TestAccess
