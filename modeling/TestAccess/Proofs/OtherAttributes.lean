import TestAccess.Proofs.Walk
import TestAccess.Report
import Mathlib.Data.List.DropRight

/-!
# Accessors take over every attribute but the annotation

An accessor carries the attributes of the declaration it stands for, except
the annotation. The list passes through every step of the program: it is
gathered from two places of the tree, put into a request, copied to each
accessor, and written in front of the accessor's text. If the annotation got
through, the generated code would be expanded again.

Whether an attribute is the annotation is asked twice: a scan asks it of the
text in the source, and the request asks it of the text without the blanks
around it. The two answers are the same because the name of an attribute does
not depend on these blanks (`attributeName_trim`).

`sites_take_over_other_attributes` is the statement for the sites of a scan.
-/

namespace TestAccess

/-! ## Names and blanks -/

/-- **Trimming twice is trimming once.** -/
theorem Chars.trim_trim (cs : List Char) : trim (trim cs) = trim cs := by
  show (((cs.dropWhile isBlank).rdropWhile isBlank).dropWhile isBlank).rdropWhile isBlank
    = (cs.dropWhile isBlank).rdropWhile isBlank
  -- the trimmed text begins like the text without the blanks in front, if there is any of it
  have hstart : ((cs.dropWhile isBlank).rdropWhile isBlank).dropWhile isBlank
      = (cs.dropWhile isBlank).rdropWhile isBlank := by
    rw [List.dropWhile_eq_self_iff]
    intro hlength
    have hfront := List.rdropWhile_prefix isBlank (cs.dropWhile isBlank)
    rw [hfront.getElem hlength]
    exact List.dropWhile_get_zero_not isBlank cs (Nat.lt_of_lt_of_le hlength hfront.length_le)
  rw [hstart, List.rdropWhile_idempotent]

/-- **The name of an attribute does not depend on the blanks around it.** -/
theorem attributeName_trim (text : String) : attributeName (Text.trim text) = attributeName text := by
  unfold attributeName Chars.attributeName
  rw [Text.toList_trim, Chars.trim_trim]

namespace Node

/-- **The texts of the attributes beside the annotation**: those of the
attributes with another name, in order, without the blanks around them. -/
def textsBesideMarker (source : List Char) (name : String) (n : Node) : List String :=
  (n.attributes.filter fun a => attributeName (a.text source) ≠ name).map fun a =>
    Text.trim (a.text source)

/-- What a request takes over are the texts beside the annotation. -/
theorem otherAttributes_eq (source : List Char) (name : String) (n : Node) :
    n.otherAttributes source name = n.textsBesideMarker source name := by
  unfold otherAttributes textsBesideMarker
  rw [List.filter_map]
  refine congrArg (List.map _) (List.filter_congr (fun a _ => ?_))
  rw [Function.comp_apply, attributeName_trim, bne, beq_eq_decide, decide_not]

/-- None of the texts beside the annotation has its name. -/
theorem attributeName_ne_of_mem_textsBesideMarker {source : List Char} {name : String}
    {n : Node} {t : String} (h : t ∈ n.textsBesideMarker source name) : attributeName t ≠ name := by
  obtain ⟨a, ha, rfl⟩ := List.mem_map.mp h
  rw [attributeName_trim]
  exact of_decide_eq_true (List.mem_filter.mp ha).2

end Node

/-! ## The text of an accessor -/

namespace Rendering

/-- Texts that are joined and then followed by the separator are followed by
it one by one. -/
theorem join_append_eq_foldr (separator rest text : String) (texts : List String) :
    Text.join separator (text :: texts) ++ separator ++ rest
      = (text :: texts).foldr (fun t rest => t ++ separator ++ rest) rest := by
  induction texts generalizing text with
  | nil => rw [Text.join, List.foldr_cons, List.foldr_nil]
  | cons next texts ih =>
    rw [Text.join, List.foldr_cons, ← ih next]
    · simp only [String.append_assoc]
    · exact List.cons_ne_nil next texts

/-- **The attributes come first**: the text of an accessor is its attributes,
each with the separator behind it, and then the text of the accessor without
attributes. -/
theorem render_eq_foldr (r : Rendering) (a : Accessor) :
    r.render a
      = a.attributes.foldr (fun t rest => t ++ r.attributeSeparator ++ rest)
          (r.render { a with attributes := [] }) := by
  have hbody : r.render { a with attributes := [] } = r.body a.kind := rfl
  rw [hbody, render]
  cases a.attributes with
  | nil => rfl
  | cons text texts => exact join_append_eq_foldr r.attributeSeparator _ text texts

end Rendering

/-! ## Sites -/

/-- Every accessor of a request carries the attributes of the request. -/
theorem Request.attributes_of_mem_accessors {o : ExpansionOptions} {q : Request} {a : Accessor}
    (ha : a ∈ (q.expand o).accessors) : a.attributes = q.attributes := by
  unfold expand expandInto at ha
  cases hrejection : q.rejection? o with
  | some d =>
    rw [hrejection] at ha
    exact absurd ha (List.not_mem_nil)
  | none =>
    rw [hrejection] at ha
    obtain ⟨kind, -, rfl⟩ := List.mem_map.mp ha
    rfl

/-- **A site takes over the attributes of a declaration**, the annotation
aside. -/
structure Site.TakesOver (c : Config) (source : List Char) (name : String) (n : Node) (s : Site) :
    Prop where
  /-- All accessors carry the same texts, those beside the annotation. -/
  attributes_eq : ∀ a ∈ (s.request.expand c.options).accessors,
    a.attributes = n.textsBesideMarker source name
  /-- No accessor carries the annotation. -/
  attributeName_ne : ∀ a ∈ (s.request.expand c.options).accessors, ∀ t ∈ a.attributes,
    attributeName t ≠ name
  /-- In the text of an accessor these texts come first, each with the
  separator behind it. -/
  rendered_eq : (SiteReport.ofSite c s).rendered
    = (s.request.expand c.options).accessors.map fun a =>
        (n.textsBesideMarker source name).foldr
          (fun t rest => t ++ c.rendering.attributeSeparator ++ rest)
          (c.rendering.render { a with attributes := [] })

/-- The site of an occurrence takes over the attributes of its node. -/
theorem Site.takesOver_of_site? (c : Config) {source : List Char} {name : String}
    {o : Node.Occurrence} {s : Site} (hs : o.site? source name = some s) :
    s.TakesOver c source name o.node := by
  have hattributes : ∀ a ∈ (s.request.expand c.options).accessors,
      a.attributes = o.node.textsBesideMarker source name := by
    intro a ha
    obtain ⟨-, m, -, rfl⟩ := (Node.Occurrence.site?_eq_some_iff ..).mp hs
    rw [Request.attributes_of_mem_accessors ha, ← Node.otherAttributes_eq]
    rfl
  refine ⟨hattributes, fun a ha t ht => ?_, ?_⟩
  · rw [hattributes a ha] at ht
    exact Node.attributeName_ne_of_mem_textsBesideMarker ht
  · show (s.request.expand c.options).accessors.map c.rendering.render = _
    refine List.map_congr_left (fun a ha => ?_)
    rw [Rendering.render_eq_foldr, hattributes a ha]

end TestAccess
