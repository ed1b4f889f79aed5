import TestAccess.Proofs.InitializerPolicy
import Mathlib.Data.Nat.Find

/-!
# Where the mark of an initializer is read

Whether an initializer can fail is read from its text and not from its node.
The text is searched for the word `init`, standing alone and followed by a mark
or by an opening bracket, and the first place of that kind decides. One would
like it to be the keyword. But the text of a declaration begins with its
attributes, and these hold free text: an attribute that deprecates an
initializer may name another one, as in `@available(*, message: "use init(x:)")`,
and then it is this mention that decides.

`Failability.ofText_eq_iff` says of any text what decides it: the first place
that mentions an initializer (`Failability.IsMention`). For the text of an
initializer the question is which of these places lie in front of the keyword.
A mention there does not reach into the keyword, neither with its word, since
the keyword stands alone, nor with what follows the word, since the keyword
begins with a letter (`Failability.isMention_append_iff`). So the part in front
of the keyword decides if it mentions an initializer by itself; otherwise the
keyword decides, and in no case what follows it
(`keyword_decides_unless_mentioned`).
-/

namespace TestAccess

namespace Failability

/-! ## Mentions of an initializer -/

/-- The word that is searched for. -/
def word : List Char := ['i', 'n', 'i', 't']

/-- What a character behind the word says, if it is a mark or an opening
bracket. -/
def ofMark? : Char → Option Failability
  | '?' => some .optional
  | '!' => some .implicitlyUnwrapped
  | '(' => some .infallible
  | '<' => some .infallible
  | _ => none

/-- What stands behind the word says, blanks aside. -/
def ofBack? (back : List Char) : Option Failability :=
  (Chars.trimStart back).head?.bind ofMark?

/-- **A text mentions an initializer** behind its beginning `front`: the word
`init` follows, nothing is glued to it in front, and what stands behind it says
whether the initializer can fail. -/
def IsMention (text front : List Char) (f : Failability) : Prop :=
  (∀ c ∈ front.getLast?, gluesToInit c = false)
    ∧ ∃ back, text = front ++ word ++ back ∧ ofBack? back = some f

/-- **The first mention of an initializer** in a text says whether it can
fail. -/
def IsFirstMention (text : List Char) (f : Failability) : Prop :=
  ∃ front, IsMention text front f
    ∧ ∀ front' f', IsMention text front' f' → front.length ≤ front'.length

/-- A text that mentions no initializer. -/
def MentionsNone (text : List Char) : Prop := ∀ front f, ¬ IsMention text front f

/-- A text has a first mention or none at all. -/
theorem exists_isFirstMention_of_not_mentionsNone {text : List Char} (h : ¬ MentionsNone text) :
    ∃ f, IsFirstMention text f := by
  classical
  unfold MentionsNone at h
  push Not at h
  have hlength : ∃ n front f, front.length = n ∧ IsMention text front f := by
    obtain ⟨front, f, hf⟩ := h
    exact ⟨front.length, front, f, rfl, hf⟩
  obtain ⟨front, f, hn, hf⟩ := Nat.find_spec hlength
  refine ⟨f, front, hf, fun front' f' hf' => ?_⟩
  rw [hn]
  exact Nat.find_min' hlength ⟨front', f', rfl, hf'⟩

/-! ## The search -/

/-- What a text says at its very beginning, given the character in front of
it. -/
def atStart? (previous : Option Char) (cs : List Char) : Option Failability :=
  if previous.any gluesToInit then none else (Chars.dropPrefix? word cs).bind ofBack?

/-- **One step of the search**: the place where it stands decides, or it goes
on with the next character. -/
theorem ofChars_cons (previous : Option Char) (c : Char) (cs : List Char) :
    ofChars previous (c :: cs) = (atStart? previous (c :: cs)).getD (ofChars (some c) cs) := by
  rw [ofChars, atStart?, word]
  by_cases hglued : previous.any gluesToInit = true
  · rw [if_pos hglued]
    cases Chars.dropPrefix? ['i', 'n', 'i', 't'] (c :: cs) with
    | none => rfl
    | some back => exact if_pos hglued
  · rw [if_neg hglued]
    cases Chars.dropPrefix? ['i', 'n', 'i', 't'] (c :: cs) with
    | none => rfl
    | some back =>
      dsimp only
      rw [if_neg hglued, Option.bind_some, ofBack?]
      cases (Chars.trimStart back).head? with
      | none => rfl
      | some d =>
        rw [Option.bind_some, ofMark?.eq_def]
        split <;> simp_all

/-- Where a search stands behind `front`, it decides exactly if there is a
mention. -/
theorem atStart?_eq_some_iff (front cs : List Char) (f : Failability) :
    atStart? front.getLast? cs = some f ↔ IsMention (front ++ cs) front f := by
  have hglued : front.getLast?.any gluesToInit = true ↔
      ¬ ∀ c ∈ front.getLast?, gluesToInit c = false := by
    cases front.getLast? with
    | none => simp
    | some c => simp
  have hback : (∃ back, front ++ cs = front ++ word ++ back ∧ ofBack? back = some f) ↔
      (Chars.dropPrefix? word cs).bind ofBack? = some f := by
    rw [Option.bind_eq_some_iff]
    simp only [Chars.dropPrefix?_eq_some_iff, List.append_assoc, List.append_right_inj]
  unfold atStart? IsMention
  rw [hback]
  by_cases h : front.getLast?.any gluesToInit = true
  · rw [if_pos h]
    exact ⟨fun hf => absurd hf (by simp), fun hf => absurd hf.1 (hglued.mp h)⟩
  · rw [if_neg h]
    exact (and_iff_right (not_not.mp (fun hn => h (hglued.mpr hn)))).symm

/-- A text mentions no initializer if none of its places decides. -/
theorem mentionsNone_iff (text : List Char) :
    MentionsNone text ↔
      ∀ k ∈ List.range (text.length + 1), atStart? (text.take k).getLast? (text.drop k) = none := by
  constructor
  · intro h k _
    rw [Option.eq_none_iff_forall_ne_some]
    intro f hf
    have hmention := (atStart?_eq_some_iff ..).mp hf
    rw [List.take_append_drop] at hmention
    exact h _ f hmention
  · rintro h front f hf
    obtain ⟨-, back, rfl, -⟩ := id hf
    have hnone := h front.length (List.mem_range.mpr (Nat.lt_succ_of_le (by
      rw [List.append_assoc, List.length_append]
      exact Nat.le_add_right ..)))
    rw [List.append_assoc, List.take_left, List.drop_left] at hnone
    rw [List.append_assoc] at hf
    rw [(atStart?_eq_some_iff ..).mpr hf] at hnone
    exact absurd hnone (by simp)

instance (text : List Char) : Decidable (MentionsNone text) :=
  decidable_of_iff _ (mentionsNone_iff text).symm

/-- **The search passes over a part without a mention.** Behind `front`, it
passes over `part` if no mention begins in it. -/
theorem ofChars_append (front part rest : List Char)
    (h : ∀ front' f, IsMention (front ++ part ++ rest) front' f →
      front.length ≤ front'.length → (front ++ part).length ≤ front'.length) :
    ofChars front.getLast? (part ++ rest) = ofChars (front ++ part).getLast? rest := by
  induction part generalizing front with
  | nil => rw [List.nil_append, List.append_nil]
  | cons c part ih =>
    have hnone : atStart? front.getLast? (c :: (part ++ rest)) = none := by
      rw [Option.eq_none_iff_forall_ne_some]
      intro f hf
      have := h front f (by simpa using (atStart?_eq_some_iff ..).mp hf) (Nat.le_refl _)
      rw [List.length_append, List.length_cons] at this
      omega
    have hlast : (some c : Option Char) = (front ++ [c]).getLast? := by simp
    rw [List.cons_append, ofChars_cons, hnone, Option.getD_none, hlast, ih]
    · simp
    · intro front' f hf hle
      have := h front' f (by simpa using hf) (by simp at hle; omega)
      simpa using this

/-- **The first mention decides.** -/
theorem ofChars_of_isFirstMention {text : List Char} {f : Failability}
    (h : IsFirstMention text f) : ofChars none text = f := by
  obtain ⟨front, hf, hfirst⟩ := h
  obtain ⟨-, back, htext, -⟩ := id hf
  have hpass : ofChars none (front ++ (word ++ back)) = ofChars front.getLast? (word ++ back) := by
    refine ofChars_append [] front (word ++ back) (fun front' f' hf' _ => ?_)
    rw [List.nil_append, ← List.append_assoc, ← htext] at hf'
    exact hfirst front' f' hf'
  have hstart : atStart? front.getLast? (word ++ back) = some f := by
    rw [atStart?_eq_some_iff, ← List.append_assoc, ← htext]
    exact hf
  rw [htext, List.append_assoc, hpass]
  show ofChars front.getLast? ('i' :: (['n', 'i', 't'] ++ back)) = f
  rw [ofChars_cons]
  exact congrArg (Option.getD · _) hstart

/-- A text without a mention is that of an initializer that cannot fail. -/
theorem ofChars_of_mentionsNone {text : List Char} (h : MentionsNone text) :
    ofChars none text = .infallible := by
  have hpass : ofChars none (text ++ []) = ofChars text.getLast? [] := by
    refine ofChars_append [] text [] (fun front' f hf _ => ?_)
    rw [List.nil_append, List.append_nil] at hf
    exact absurd hf (h front' f)
  rw [List.append_nil] at hpass
  rw [hpass, ofChars]

/-- **What decides a text**: its first mention of an initializer. If there is
none, the text is that of an initializer that cannot fail. -/
theorem ofText_eq_iff (text : String) (f : Failability) :
    ofText text = f ↔
      IsFirstMention text.toList f ∨ (MentionsNone text.toList ∧ f = .infallible) := by
  unfold ofText
  constructor
  · rintro rfl
    by_cases hnone : MentionsNone text.toList
    · exact Or.inr ⟨hnone, ofChars_of_mentionsNone hnone⟩
    · obtain ⟨f, hf⟩ := exists_isFirstMention_of_not_mentionsNone hnone
      rw [ofChars_of_isFirstMention hf]
      exact Or.inl hf
  · rintro (hf | ⟨hnone, rfl⟩)
    · exact ofChars_of_isFirstMention hf
    · exact ofChars_of_mentionsNone hnone

/-! ## The keyword of an initializer -/

/-- The mark of an initializer, with an opening bracket behind it, is read. -/
theorem ofBack?_suffix_append (f : Failability) {rest : List Char} {c : Char}
    (hc : (Chars.trimStart rest).head? = some c) (hopen : c = '(' ∨ c = '<') :
    ofBack? (f.suffix.toList ++ rest) = some f := by
  cases f with
  | infallible =>
    show (Chars.trimStart rest).head?.bind ofMark? = _
    rw [hc, Option.bind_some]
    rcases hopen with rfl | rfl <;> rfl
  | optional => rfl
  | implicitlyUnwrapped => rfl

/-- **What follows a place is read up to the keyword only**, which says nothing
itself since it is a word. -/
theorem ofBack?_append_word (back rest : List Char) :
    ofBack? (back ++ (word ++ rest)) = ofBack? back := by
  unfold ofBack? Chars.trimStart
  rw [List.dropWhile_append]
  cases h : back.dropWhile isBlank with
  | nil =>
    rw [List.isEmpty_nil, if_pos rfl]
    rfl
  | cons c cs =>
    rw [List.isEmpty_cons, if_neg Bool.false_ne_true]
    rfl

/-- The letters of the word glue to a word behind them. -/
theorem gluesToInit_of_mem_word {c : Char} (h : c ∈ word) : gluesToInit c = true := by
  have hall : word.all gluesToInit = true := by decide +kernel
  exact List.all_eq_true.mp hall c h

variable {front : List Char} (hfront : ∀ c ∈ front.getLast?, gluesToInit c = false)

include hfront in
/-- **A mention in front of the keyword is a mention in that part alone.** The
word of a mention cannot reach into the keyword, because then a letter would be
glued to the keyword. -/
theorem isMention_append_iff (rest before : List Char) (f : Failability)
    (hlt : before.length < front.length) :
    IsMention (front ++ (word ++ rest)) before f ↔ IsMention front before f := by
  unfold IsMention
  refine and_congr_right (fun _ => ?_)
  constructor
  · rintro ⟨back, htext, hback⟩
    rw [List.append_assoc, List.append_eq_append_iff] at htext
    rcases htext with ⟨tail, rfl, -⟩ | ⟨tail, rfl, hword⟩
    · rw [List.length_append] at hlt
      omega
    · rcases List.append_eq_append_iff.mp hword with ⟨tail', rfl, rfl⟩ | ⟨tail', hsplit, -⟩
      · rw [ofBack?_append_word] at hback
        exact ⟨tail', (List.append_assoc ..).symm, hback⟩
      · -- the word of the mention ends in the keyword, behind a letter of its own
        have hne : tail ≠ [] := by
          rintro rfl
          rw [List.append_nil] at hlt
          exact Nat.lt_irrefl _ hlt
        have hlast : tail.getLast hne ∈ (before ++ tail).getLast? := by
          rw [List.getLast?_append_of_ne_nil _ hne, List.getLast?_eq_some_getLast hne]
          rfl
        have hglues := gluesToInit_of_mem_word (c := tail.getLast hne)
          (hsplit ▸ List.mem_append_left _ (List.getLast_mem hne))
        rw [hfront _ hlast] at hglues
        exact absurd hglues (by simp)
  · rintro ⟨back, rfl, hback⟩
    exact ⟨back ++ (word ++ rest), by simp only [List.append_assoc], by
      rw [ofBack?_append_word, hback]⟩

include hfront in
/-- **The keyword is a mention**, with the mark behind it. -/
theorem isMention_keyword (f : Failability) {rest : List Char} {c : Char}
    (hc : (Chars.trimStart rest).head? = some c) (hopen : c = '(' ∨ c = '<') :
    IsMention (front ++ (word ++ (f.suffix.toList ++ rest))) front f :=
  ⟨hfront, f.suffix.toList ++ rest, (List.append_assoc ..).symm, ofBack?_suffix_append f hc hopen⟩

include hfront in
/-- The first mention in front of the keyword is the first one of the text. -/
theorem isFirstMention_append {g : Failability} (h : IsFirstMention front g) (rest : List Char) :
    IsFirstMention (front ++ (word ++ rest)) g := by
  obtain ⟨before, hbefore, hfirst⟩ := h
  have hlt : before.length < front.length := by
    obtain ⟨-, back, rfl, -⟩ := hbefore
    simp [word]
  refine ⟨before, (isMention_append_iff hfront _ _ _ hlt).mpr hbefore, fun before' g' h' => ?_⟩
  rcases Nat.lt_or_ge before'.length front.length with hlt' | hge
  · exact hfirst before' g' ((isMention_append_iff hfront _ _ _ hlt').mp h')
  · exact Nat.le_trans (Nat.le_of_lt hlt) hge

include hfront in
/-- If nothing in front of the keyword mentions an initializer, the keyword is
the first mention. -/
theorem isFirstMention_keyword (hnone : MentionsNone front) (f : Failability) {rest : List Char}
    {c : Char} (hc : (Chars.trimStart rest).head? = some c) (hopen : c = '(' ∨ c = '<') :
    IsFirstMention (front ++ (word ++ (f.suffix.toList ++ rest))) f := by
  refine ⟨front, isMention_keyword hfront f hc hopen, fun before' g' h' =>
    Nat.le_of_not_lt fun hlt => ?_⟩
  exact hnone before' g' ((isMention_append_iff hfront _ _ _ hlt).mp h')

end Failability

/-- **The factory of an initializer** returns `Self` with the mark of the
initializer. -/
theorem Initializer.returnType_of_accessor? {i : Initializer} {f : AccessorFunction}
    (h : i.accessor? = some f) :
    f.name = "_test_init" ∧ f.returnType = some ("Self" ++ i.failability.suffix) := by
  unfold accessor? at h
  split at h
  · rw [← Option.some.inj h]
    exact ⟨rfl, rfl⟩
  · exact absurd h (by simp)

open Failability in
/-- **The keyword decides, unless something in front of it mentions an
initializer.** Let a text be that of an initializer: `front`, which does not
glue to what follows, then the keyword, its mark, and `rest`, which opens with a
bracket. What is read is the mark of the first mention in `front`. If `front`
mentions no initializer, it is the mark behind the keyword. What `rest` holds
does not matter. And an initializer declaration with this text has a factory, if
any, that returns `Self` with the mark that was read. -/
theorem keyword_decides_unless_mentioned (front rest : List Char) (f : Failability) (c : Char)
    (hfront : ∀ d ∈ front.getLast?, gluesToInit d = false)
    (hrest : (Chars.trimStart rest).head? = some c) (hopen : c = '(' ∨ c = '<')
    (text : String) (htext : text.toList = front ++ (word ++ (f.suffix.toList ++ rest))) :
    (∀ g, ofText text = g ↔ IsFirstMention front g ∨ (MentionsNone front ∧ g = f))
      ∧ ∀ (source : List Char) (n : Node), n.kind = "init_declaration" → n.text source = text →
          ∃ i, Declaration.ofNode source n = .initializer i ∧ i.failability = ofText text
            ∧ ∀ F, i.accessor? = some F → F.name = "_test_init"
                ∧ F.returnType = some ("Self" ++ (ofText text).suffix) := by
  have hfirst : ∀ g, IsFirstMention front g → ofText text = g := by
    intro g hg
    rw [ofText_eq_iff, htext]
    exact Or.inl (isFirstMention_append hfront hg _)
  have hkeyword : MentionsNone front → ofText text = f := by
    intro hnone
    rw [ofText_eq_iff, htext]
    exact Or.inl (isFirstMention_keyword hfront hnone f hrest hopen)
  constructor
  · intro g
    constructor
    · rintro rfl
      by_cases hnone : MentionsNone front
      · exact Or.inr ⟨hnone, hkeyword hnone⟩
      · obtain ⟨g, hg⟩ := exists_isFirstMention_of_not_mentionsNone hnone
        rw [hfirst g hg]
        exact Or.inl hg
    · rintro (hg | ⟨hnone, rfl⟩)
      · exact hfirst g hg
      · exact hkeyword hnone
  · intro source n hkind hn
    have hmark : (Initializer.ofNode source n).failability = ofText text := by
      rw [← hn]
      rfl
    refine ⟨Initializer.ofNode source n, ?_, hmark, fun F hF => ?_⟩
    · exact (Declaration.ofNode_eq_initializer_iff source n _).mpr ⟨hkind, rfl⟩
    · rw [← hmark]
      exact Initializer.returnType_of_accessor? hF

/-- What stands in front of a keyword is not glued to it if its last character
is not. -/
theorem not_glued_of_getLast? {front : List Char} {c : Char} (hlast : front.getLast? = some c)
    (hc : gluesToInit c = false) : ∀ d ∈ front.getLast?, gluesToInit d = false := by
  intro d hd
  rw [hlast] at hd
  rw [← Option.some.inj hd]
  exact hc

/-- An attribute that holds the letters of the word, and a modifier. -/
def requiredFront : List Char := "@A(\"initial\") required ".toList

/-- The parameter and the body of an initializer, which uses another one. -/
def usingRest : List Char := " (x: Int) \x7b self.init!() \x7d".toList

/-- Of an initializer whose body uses another one, the mark behind the keyword
is read. -/
theorem keyword_decides_unless_mentioned_required :
    (∀ d ∈ requiredFront.getLast?, gluesToInit d = false)
      ∧ (Chars.trimStart usingRest).head? = some '('
      ∧ Failability.MentionsNone requiredFront
      ∧ Failability.ofText "@A(\"initial\") required init? (x: Int) \x7b self.init!() \x7d"
        = .optional := by
  have hfront : ∀ d ∈ requiredFront.getLast?, gluesToInit d = false :=
    not_glued_of_getLast? (show _ = some ' ' by decide +kernel) (by decide)
  have hrest : (Chars.trimStart usingRest).head? = some '(' := by decide +kernel
  have hnone : Failability.MentionsNone requiredFront := by decide +kernel
  refine ⟨hfront, hrest, hnone, ?_⟩
  obtain ⟨hdecides, -⟩ := keyword_decides_unless_mentioned requiredFront usingRest .optional '('
    hfront hrest (Or.inl rfl) "@A(\"initial\") required init? (x: Int) \x7b self.init!() \x7d"
    (by decide +kernel)
  exact (hdecides .optional).mpr (Or.inr ⟨hnone, rfl⟩)

/-- What stands in front of the keyword of an initializer: an attribute that
mentions another one, and the annotation. -/
def mentioningFront : List Char := "@A(\"use init(x:)\") @V ".toList

/-- The parameter and the body of the initializer. -/
def plainRest : List Char := "(y: Int) \x7b\x7d".toList

/-- The source of the initializer, which can fail. -/
def mentioningSource : String := "@A(\"use init(x:)\") @V init?(y: Int) \x7b\x7d"

/-- The tree of the initializer. -/
def mentioningTree : Node :=
  .mk "init_declaration" ⟨0, 38⟩ true []
    [.mk "modifiers" ⟨0, 21⟩ true []
        [.mk "attribute" ⟨0, 18⟩ true [] [], .mk "attribute" ⟨19, 21⟩ true [] []],
      .mk "init" ⟨22, 26⟩ false ["name"] [], .mk "?" ⟨26, 27⟩ false [] [],
      .mk "(" ⟨27, 28⟩ false [] [], .mk "parameter" ⟨28, 34⟩ true [] [],
      .mk ")" ⟨34, 35⟩ false [] [], .mk "function_body" ⟨36, 38⟩ true ["body"] []]

/-- **A mention in an attribute decides.** The keyword has a mark behind it, and
what is read is that the initializer cannot fail; its factory returns `Self`
without a mark. -/
theorem mention_in_attribute_decides :
    (∀ d ∈ mentioningFront.getLast?, gluesToInit d = false)
      ∧ (Chars.trimStart plainRest).head? = some '('
      ∧ mentioningTree.kind = "init_declaration"
      ∧ (mentioningTree.text mentioningSource.toList).toList
        = mentioningFront ++ (Failability.word
            ++ (Failability.optional.suffix.toList ++ plainRest))
      ∧ (Initializer.ofNode mentioningSource.toList mentioningTree).failability ≠ .optional
      ∧ ((Initializer.ofNode mentioningSource.toList mentioningTree).accessor?.bind
          AccessorFunction.returnType) = some "Self" :=
  ⟨not_glued_of_getLast? (show _ = some ' ' by decide +kernel) (by decide), by decide +kernel, rfl,
    by decide +kernel, by decide +kernel, by decide +kernel⟩

end TestAccess
