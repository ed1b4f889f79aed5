import TestAccess.Proofs.CommaLists
import TestAccess.Proofs.OtherAttributes

/-!
# Attributes of parameters

An attribute belongs to what it stands in front of: one in front of a parameter
is about the parameter. But a parameter's attribute is no part of the parameter
in the tree. It is a part of the declaration, next to the parameter, as an
attribute of the declaration would be that stands outside the list of
modifiers; and the attributes of a declaration are gathered from all of its
parts, wherever they stand (`Node.attributes`).

So the attributes of the parameters are counted among those of the declaration,
behind those of its modifiers and in the order of the parameters
(`FunctionHead.attributes_eq`). Both uses of the list inherit this: a declaration
of which only a parameter carries the annotation is a site, and what stands in
front of a parameter is written in front of the accessor
(`parameter_attributes_count`). The attributes of the modifiers are alone with
the annotation, and alone on the accessor, only where the attributes of the
parameters happen to be of no consequence, and the theorem says where that is.
-/

namespace TestAccess

namespace Node

/-- **A part that holds no attribute of the declaration**: it is neither one
nor the list of modifiers. -/
def HoldsNoAttribute (n : Node) : Prop := n.kind ≠ "attribute" ∧ n.kind ≠ "modifiers"

/-- The attributes among the modifiers of a declaration. -/
def modifierAttributes (modifiers : Node) : List Node :=
  modifiers.children.filter fun m => m.kind == "attribute"

/-- The texts of attributes that do not have the name of the annotation, without
the blanks around them. -/
def textsBeside (source : List Char) (name : String) (attributes : List Node) : List String :=
  (attributes.filter fun a => attributeName (a.text source) ≠ name).map fun a =>
    Text.trim (a.text source)

theorem holdsNoAttribute_of_kind {n : Node} {kind : String} (h : n.kind = kind)
    (hattribute : kind ≠ "attribute") (hmodifiers : kind ≠ "modifiers") : n.HoldsNoAttribute := by
  rw [HoldsNoAttribute, h]
  exact ⟨hattribute, hmodifiers⟩

theorem attributesOfPart_of_holdsNoAttribute {n : Node} (h : n.HoldsNoAttribute) :
    n.attributesOfPart = [] := by
  rw [attributesOfPart, if_neg h.1, if_neg h.2]

/-- Parts that hold no attribute contribute none. -/
theorem flatMap_attributesOfPart_of_holdsNoAttribute {parts : List Node}
    (h : ∀ p ∈ parts, p.HoldsNoAttribute) : parts.flatMap attributesOfPart = [] :=
  List.flatMap_eq_nil_iff.mpr fun p hp => attributesOfPart_of_holdsNoAttribute (h p hp)

/-- An attribute contributes itself. -/
theorem flatMap_attributesOfPart_of_attributes {parts : List Node}
    (h : ∀ p ∈ parts, p.kind = "attribute") : parts.flatMap attributesOfPart = parts := by
  induction parts with
  | nil => rfl
  | cons p parts ih =>
    rw [List.flatMap_cons, ih (fun p hp => h p (List.mem_cons_of_mem _ hp)), attributesOfPart,
      if_pos (h p (List.mem_cons_self ..)), List.singleton_append]

/-- The list of modifiers contributes its own attributes. -/
theorem attributesOfPart_modifiers {m : Node} (h : m.kind = "modifiers") :
    m.attributesOfPart = m.modifierAttributes := by
  rw [attributesOfPart, if_neg (by rw [h]; decide), if_pos h, modifierAttributes]

end Node

/-! ## Declarations with parameters -/

/-- **A parameter with what belongs to it**: the attributes in front of it, and
its default value behind an equals sign. -/
structure AttributedParameter where
  attributes : List Node
  parameter : Node
  /-- The equals sign and the default value. -/
  value : Option (Node × Node)
  kind_attributes : ∀ a ∈ attributes, a.kind = "attribute"
  kind_parameter : parameter.kind = "parameter"
  kind_sign : ∀ v ∈ value, v.1.kind = "="
  holdsNoAttribute_value : ∀ v ∈ value, v.2.HoldsNoAttribute

namespace AttributedParameter

/-- The parts behind the attributes. -/
def ownParts (g : AttributedParameter) : List Node :=
  g.parameter :: g.value.toList.flatMap fun v => [v.1, v.2]

/-- The parts of the declaration that belong to the parameter. -/
def parts (g : AttributedParameter) : List Node := g.attributes ++ g.ownParts

/-- Behind its attributes, nothing that belongs to a parameter holds one. -/
theorem holdsNoAttribute_of_mem_ownParts (g : AttributedParameter) :
    ∀ p ∈ g.ownParts, p.HoldsNoAttribute := by
  refine List.forall_mem_cons.mpr
    ⟨Node.holdsNoAttribute_of_kind g.kind_parameter (by decide) (by decide), fun p hp => ?_⟩
  obtain ⟨v, hv, hp⟩ := List.mem_flatMap.mp hp
  have hvalue : v ∈ g.value := Option.mem_toList.mp hv
  rcases List.mem_pair.mp hp with rfl | rfl
  · exact Node.holdsNoAttribute_of_kind (g.kind_sign v hvalue) (by decide) (by decide)
  · exact g.holdsNoAttribute_value v hvalue

/-- **One parameter** contributes the attributes in front of it. -/
theorem flatMap_attributesOfPart_parts (g : AttributedParameter) :
    g.parts.flatMap Node.attributesOfPart = g.attributes := by
  rw [parts, List.flatMap_append, Node.flatMap_attributesOfPart_of_attributes g.kind_attributes,
    Node.flatMap_attributesOfPart_of_holdsNoAttribute g.holdsNoAttribute_of_mem_ownParts,
    List.append_nil]

/-- **A list of parameters** contributes the attributes in front of each, in
order. -/
theorem flatMap_attributesOfPart_of_commaList {groups : List AttributedParameter}
    {inner : List Node} (h : Node.CommaList parts groups inner) :
    inner.flatMap Node.attributesOfPart = groups.flatMap attributes := by
  have hcomma : ∀ comma : Node, comma.kind = "," → comma.attributesOfPart = [] := fun _ h =>
    Node.attributesOfPart_of_holdsNoAttribute
      (Node.holdsNoAttribute_of_kind h (by decide) (by decide))
  rw [h.flatMap_eq hcomma]
  exact List.flatMap_congr fun g _ => flatMap_attributesOfPart_parts g

end AttributedParameter

/-- **The parts of a method or an initializer**: its modifiers, if there are
any; the keyword, the name and the generic clause; the list of parameters in
its parentheses; and what follows. -/
structure FunctionHead where
  modifiers : Option Node
  /-- The keyword, the name and the generic clause. -/
  front : List Node
  opening : Node
  parameters : List AttributedParameter
  /-- The parts between the parentheses. -/
  inner : List Node
  closing : Node
  /-- Effects, type of the result, constraints, body. -/
  back : List Node
  kind_modifiers : ∀ m ∈ modifiers, m.kind = "modifiers"
  holdsNoAttribute_front : ∀ p ∈ front, p.HoldsNoAttribute
  kind_opening : opening.kind = "("
  listed : Node.CommaList AttributedParameter.parts parameters inner
  kind_closing : closing.kind = ")"
  holdsNoAttribute_back : ∀ p ∈ back, p.HoldsNoAttribute

namespace FunctionHead

/-- All parts, in order. -/
def parts (d : FunctionHead) : List Node :=
  d.modifiers.toList ++ (d.front ++ d.opening :: (d.inner ++ d.closing :: d.back))

/-- **The attributes that the declaration carries itself.** -/
def ownAttributes (d : FunctionHead) : List Node :=
  d.modifiers.toList.flatMap Node.modifierAttributes

/-- **The attributes of the parameters**, in order. -/
def parameterAttributes (d : FunctionHead) : List Node :=
  d.parameters.flatMap AttributedParameter.attributes

variable {d : FunctionHead} {n : Node}

/-- **The attributes of the parameters are counted** among those of the
declaration, behind its own. -/
theorem attributes_eq (h : n.children = d.parts) :
    n.attributes = d.ownAttributes ++ d.parameterAttributes := by
  have hmodifiers : d.modifiers.toList.flatMap Node.attributesOfPart = d.ownAttributes :=
    List.flatMap_congr fun m hm =>
      Node.attributesOfPart_modifiers (d.kind_modifiers m (Option.mem_toList.mp hm))
  have hopening : d.opening.HoldsNoAttribute :=
    Node.holdsNoAttribute_of_kind d.kind_opening (by decide) (by decide)
  have hbehind : ∀ p ∈ d.closing :: d.back, p.HoldsNoAttribute :=
    List.forall_mem_cons.mpr
      ⟨Node.holdsNoAttribute_of_kind d.kind_closing (by decide) (by decide),
        d.holdsNoAttribute_back⟩
  rw [Node.attributes, h, parts, List.flatMap_append, hmodifiers, List.flatMap_append,
    Node.flatMap_attributesOfPart_of_holdsNoAttribute d.holdsNoAttribute_front, List.nil_append,
    List.flatMap_cons, Node.attributesOfPart_of_holdsNoAttribute hopening, List.nil_append,
    List.flatMap_append, AttributedParameter.flatMap_attributesOfPart_of_commaList d.listed,
    Node.flatMap_attributesOfPart_of_holdsNoAttribute hbehind, List.append_nil]
  rfl

end FunctionHead

/-! ## What the attributes of parameters do -/

namespace Node

/-- What is taken over from two lists of attributes, one behind the other. -/
theorem textsBeside_append (source : List Char) (name : String) (as bs : List Node) :
    textsBeside source name (as ++ bs)
      = textsBeside source name as ++ textsBeside source name bs := by
  rw [textsBeside, List.filter_append, List.map_append]
  rfl

/-- Nothing is taken over exactly from attributes that all have the name of the
annotation. -/
theorem textsBeside_eq_nil_iff (source : List Char) (name : String) (as : List Node) :
    textsBeside source name as = [] ↔ ∀ a ∈ as, attributeName (a.text source) = name := by
  rw [textsBeside, List.map_eq_nil_iff, List.filter_eq_nil_iff]
  simp

/-- There is an annotation among attributes exactly when one has its name. -/
theorem find?_isAttributeNamed_ne_none_iff (source : List Char) (name : String)
    (as : List Node) :
    as.find? (isAttributeNamed source name) ≠ none
      ↔ ∃ a ∈ as, attributeName (a.text source) = name := by
  rw [Ne, List.find?_eq_none]
  push Not
  simp [isAttributeNamed]

end Node

/-- **What is found on a declaration, and what its accessors carry**, when the
attributes of its parameters are counted. -/
structure FunctionHead.CountsParameters (c : Config) (source : List Char) (name : String)
    (o : Node.Occurrence) (d : FunctionHead) : Prop where
  /-- The attributes of the parameters stand behind those of the modifiers. -/
  attributes_eq : o.node.attributes = d.ownAttributes ++ d.parameterAttributes
  /-- The annotation is the first among the modifiers, or else the first in
  front of a parameter. -/
  marker?_eq : o.node.marker? source name
    = (d.ownAttributes.find? (Node.isAttributeNamed source name)).or
        (d.parameterAttributes.find? (Node.isAttributeNamed source name))
  /-- So an annotation in front of a parameter makes a site. -/
  site_iff : (∃ s, o.site? source name = some s)
    ↔ (∃ a ∈ d.ownAttributes, attributeName (a.text source) = name)
      ∨ ∃ a ∈ d.parameterAttributes, attributeName (a.text source) = name
  /-- Every accessor carries the attributes of both, the annotation aside. -/
  accessors_eq : ∀ s, o.site? source name = some s →
    ∀ a ∈ (s.request.expand c.options).accessors,
      a.attributes = Node.textsBeside source name d.ownAttributes
        ++ Node.textsBeside source name d.parameterAttributes
  /-- The modifiers alone decide about the annotation exactly if they hold it,
  or no parameter does. -/
  marker?_own_iff : o.node.marker? source name
      = d.ownAttributes.find? (Node.isAttributeNamed source name)
    ↔ (∃ a ∈ d.ownAttributes, attributeName (a.text source) = name)
      ∨ ∀ a ∈ d.parameterAttributes, attributeName (a.text source) ≠ name
  /-- Only attributes of the modifiers are taken over exactly if those of the
  parameters are all annotations. -/
  otherAttributes_own_iff : o.node.otherAttributes source name
      = Node.textsBeside source name d.ownAttributes
    ↔ ∀ a ∈ d.parameterAttributes, attributeName (a.text source) = name

/-- **The attributes of parameters count as attributes of the declaration.** Let
the parts of a method or an initializer be its modifiers, its keyword, name and
generic clause, a list of parameters with attributes and default values, and a
suffix. Its attributes are those of the modifiers and behind them those of the
parameters, and an attribute of a parameter is treated as one of the
declaration: it makes the declaration a site if it is the annotation, and is
carried by the accessor if it is not. -/
theorem parameter_attributes_count (c : Config) (source : List Char) (name : String)
    (o : Node.Occurrence) (d : FunctionHead)
    (hkind : o.node.kind = "function_declaration" ∨ o.node.kind = "init_declaration")
    (h : o.node.children = d.parts) : d.CountsParameters c source name o := by
  have hattributes := FunctionHead.attributes_eq h
  have hmarker : o.node.marker? source name
      = (d.ownAttributes.find? (Node.isAttributeNamed source name)).or
          (d.parameterAttributes.find? (Node.isAttributeNamed source name)) := by
    rw [Node.marker?, hattributes, List.find?_append]
  have htexts : o.node.textsBesideMarker source name
      = Node.textsBeside source name d.ownAttributes
        ++ Node.textsBeside source name d.parameterAttributes := by
    rw [← Node.textsBeside_append, ← hattributes]
    rfl
  have hdeclaration : o.node.isDeclaration = true := by
    rcases hkind with hkind | hkind
    · rw [Node.isDeclaration, hkind]
      decide
    · rw [Node.isDeclaration, hkind]
      decide
  refine ⟨hattributes, hmarker, ?_, fun s hs a ha => ?_, ?_, ?_⟩
  · have hsite : (∃ s, o.site? source name = some s) ↔ o.node.marker? source name ≠ none := by
      rw [Node.Occurrence.site?, if_pos hdeclaration, Option.ne_none_iff_isSome,
        ← Option.isSome_iff_exists, Option.isSome_map]
    rw [hsite, hmarker, Ne, Option.or_eq_none_iff, not_and_or, ← Ne, ← Ne,
      Node.find?_isAttributeNamed_ne_none_iff, Node.find?_isAttributeNamed_ne_none_iff]
  · rw [(Site.takesOver_of_site? c hs).attributes_eq a ha, htexts]
  · rw [hmarker, ← Node.find?_isAttributeNamed_ne_none_iff]
    cases d.ownAttributes.find? (Node.isAttributeNamed source name) with
    | some a => simp
    | none =>
      rw [Option.none_or, List.find?_eq_none]
      simp [Node.isAttributeNamed]
  · rw [Node.otherAttributes_eq, htexts, List.append_right_eq_self, Node.textsBeside_eq_nil_iff]

/-- A method with two attributes of its own and one in front of its parameter. -/
def builderSource : String := "@V @A func f(@B x: () -> Int) \x7b\x7d"

/-- A parameter behind one attribute. -/
def attributedParameter (front behind : ByteRange) : AttributedParameter where
  attributes := [.mk "attribute" front true [] []]
  parameter := .mk "parameter" behind true [] []
  value := none
  kind_attributes := by simp [Node.kind]
  kind_parameter := rfl
  kind_sign := by simp
  holdsNoAttribute_value := by simp

/-- The parts of the method. -/
def builderHead : FunctionHead where
  modifiers := some (.mk "modifiers" ⟨0, 5⟩ true []
    [.mk "attribute" ⟨0, 2⟩ true [] [], .mk "attribute" ⟨3, 5⟩ true [] []])
  front := [.mk "func" ⟨6, 10⟩ false [] [], .mk "simple_identifier" ⟨11, 12⟩ true ["name"] []]
  opening := .mk "(" ⟨12, 13⟩ false [] []
  parameters := [attributedParameter ⟨13, 15⟩ ⟨16, 28⟩]
  inner := (attributedParameter ⟨13, 15⟩ ⟨16, 28⟩).parts
  closing := .mk ")" ⟨28, 29⟩ false [] []
  back := [.mk "function_body" ⟨30, 32⟩ true ["body"] []]
  kind_modifiers := by simp [Node.kind]
  holdsNoAttribute_front := by simp [Node.HoldsNoAttribute, Node.kind]
  kind_opening := rfl
  listed := .one _
  kind_closing := rfl
  holdsNoAttribute_back := by simp [Node.HoldsNoAttribute, Node.kind]

/-- The tree of the method. -/
def builderTree : Node := .mk "function_declaration" ⟨0, 32⟩ true [] builderHead.parts

/-- The method is a site, and its accessor carries the attribute of the
parameter behind the other attribute of the method. -/
theorem parameter_attributes_count_builderTree :
    builderTree.kind = "function_declaration" ∧ builderTree.children = builderHead.parts
      ∧ ∃ s, (⟨builderTree, []⟩ : Node.Occurrence).site? builderSource.toList "V" = some s
        ∧ (s.request.expand {}).accessors.length = 1
        ∧ ∀ a ∈ (s.request.expand {}).accessors, a.attributes = ["@A", "@B"] := by
  have hcounts := parameter_attributes_count {} builderSource.toList "V" ⟨builderTree, []⟩
    builderHead (Or.inl rfl) rfl
  obtain ⟨s, hs⟩ := hcounts.site_iff.mpr
    (Or.inl ⟨.mk "attribute" ⟨0, 2⟩ true [] [], List.mem_cons_self .., by decide +kernel⟩)
  have hlength : ∀ t ∈ (⟨builderTree, []⟩ : Node.Occurrence).site? builderSource.toList "V",
      (t.request.expand {}).accessors.length = 1 := by decide +kernel
  have htexts : Node.textsBeside builderSource.toList "V" builderHead.ownAttributes
      ++ Node.textsBeside builderSource.toList "V" builderHead.parameterAttributes
        = ["@A", "@B"] := by decide +kernel
  exact ⟨rfl, rfl, s, hs, hlength s hs, fun a ha => (hcounts.accessors_eq s hs a ha).trans htexts⟩

/-- A method with no attribute of its own. Of its parameters, one carries the
annotation and the other something else. -/
def bareSource : String := "func f(@V x: Int, @B y: Int) \x7b\x7d"

/-- The parts of the method. -/
def bareHead : FunctionHead where
  modifiers := none
  front := [.mk "func" ⟨0, 4⟩ false [] [], .mk "simple_identifier" ⟨5, 6⟩ true ["name"] []]
  opening := .mk "(" ⟨6, 7⟩ false [] []
  parameters := [attributedParameter ⟨7, 9⟩ ⟨10, 16⟩, attributedParameter ⟨18, 20⟩ ⟨21, 27⟩]
  inner := (attributedParameter ⟨7, 9⟩ ⟨10, 16⟩).parts
    ++ .mk "," ⟨16, 17⟩ false [] [] :: (attributedParameter ⟨18, 20⟩ ⟨21, 27⟩).parts
  closing := .mk ")" ⟨27, 28⟩ false [] []
  back := [.mk "function_body" ⟨29, 31⟩ true ["body"] []]
  kind_modifiers := by simp
  holdsNoAttribute_front := by simp [Node.HoldsNoAttribute, Node.kind]
  kind_opening := rfl
  listed := .more _ rfl (.one _)
  kind_closing := rfl
  holdsNoAttribute_back := by simp [Node.HoldsNoAttribute, Node.kind]

/-- The tree of the method. -/
def bareTree : Node := .mk "function_declaration" ⟨0, 31⟩ true [] bareHead.parts

/-- **An attribute of a parameter is not left to the parameter**: a method
without any attribute of its own is a site by the annotation of one parameter,
and its accessor carries the attribute of the other. -/
theorem bare_method_has_site :
    bareTree.kind = "function_declaration" ∧ bareTree.children = bareHead.parts
      ∧ bareHead.ownAttributes = []
      ∧ (bareTree.marker? bareSource.toList "V").isSome = true
      ∧ bareTree.otherAttributes bareSource.toList "V" = ["@B"]
      ∧ ((⟨bareTree, []⟩ : Node.Occurrence).site? bareSource.toList "V").map
          (fun s => (s.request.expand {}).accessors.map Accessor.attributes) = some [["@B"]] :=
  ⟨rfl, rfl, rfl, by decide +kernel, by decide +kernel, by decide +kernel⟩

end TestAccess
