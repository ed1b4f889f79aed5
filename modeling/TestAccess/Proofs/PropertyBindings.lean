import TestAccess.Proofs.CommaLists
import TestAccess.Proofs.ExpansionRuns
import TestAccess.Proofs.LayoutWords
import TestAccess.Proofs.MarkerNames
import TestAccess.Proofs.SharedTypes

/-!
# The accessors of a property declaration

A property declaration may introduce any number of bindings, and its node holds
them as one flat list of parts: patterns, annotations, equals signs, values,
blocks and commas are neighbours. A reading takes them from left to right and
gives what it finds to the last binding that it has seen, whichever that is. A
second pass, from right to left, gives a type to bindings without one.

Both passes could go wrong at a distance: a part may end up with the binding
before or behind its own, and the type of one binding depends on all that
follow. Parts do stay together, since every group of parts opens with its
pattern and every other part is about the binding opened last
(`BindingGroup.foldl_step_parts`). For the types there is a reading from the
front (`BindingGroup.effectiveType?`): the type of a group is its own, or else,
unless the group has a value to infer it from, that of the group behind it; and
the pass from the back computes just this (`BindingGroup.shareTypes_map`).

`property_accessors_of_clause` puts them together and says of every property
declaration what its accessors are.
-/

namespace TestAccess

variable {source : List Char}

/-! ## Bindings as groups of parts -/

namespace PropertyReading

/-- The kinds of parts that a reading of a property takes notice of. -/
def kinds : List String :=
  ["value_binding_pattern", "pattern", "=", "type_annotation", "computed_property",
    "willset_didset_block"]

end PropertyReading

/-- **The parts of one binding**: its pattern and, each if there is one, an
annotation, a value behind an equals sign, and a block of accessors or
observers. -/
structure BindingGroup where
  pattern : Node
  /-- The type behind its colon. -/
  typePart : Option Node
  /-- The equals sign and the value. -/
  value : Option (Node × Node)
  block : Option Node
  kind_pattern : pattern.kind = "pattern"
  kind_typePart : ∀ a ∈ typePart, a.kind = "type_annotation"
  kind_value : ∀ v ∈ value, v.1.kind = "=" ∧ v.2.kind ∉ PropertyReading.kinds
  kind_block : ∀ b ∈ block, b.kind = "computed_property" ∨ b.kind = "willset_didset_block"

namespace BindingGroup

/-- The parts of a group, in order. -/
def parts (g : BindingGroup) : List Node :=
  g.pattern :: (g.typePart.toList ++ (g.value.toList.flatMap (fun v => [v.1, v.2])
    ++ g.block.toList))

/-! ### What a group declares -/

/-- The type in the annotation of the group itself. -/
def ownType? (source : List Char) (g : BindingGroup) : Option String :=
  g.typePart.bind fun a => annotatedType? (a.text source)

/-- **The effective type of the first of some groups**: its own type; without
one, and without a value to infer it from, the effective type of the next
group. -/
def effectiveType? (source : List Char) : List BindingGroup → Option String
  | [] => none
  | g :: later =>
    (g.ownType? source).or (if g.value.isSome then none else effectiveType? source later)

/-- **The group can only be read**: it is computed, and no clause of its block
sets or modifies. -/
def isReadOnly (g : BindingGroup) : Bool :=
  g.block.any fun b =>
    b.kind == "computed_property"
      && b.children.all fun c => c.kind != "computed_setter" && c.kind != "computed_modify"

/-- How the group keeps its value. -/
def storage (g : BindingGroup) : Storage :=
  match g.block with
  | none => .stored
  | some b => if b.kind = "computed_property" then .ofComputed b else .observed

/-- The binding that is read from a group. -/
def marked (source : List Char) (g : BindingGroup) : MarkedBinding :=
  { binding :=
      { pattern := .ofText (g.pattern.text source), declaredType := g.ownType? source,
        storage := g.storage },
    isInitialized := g.value.isSome }

theorem binding_marked (source : List Char) (g : BindingGroup) :
    (g.marked source).binding
      = { pattern := .ofText (g.pattern.text source), declaredType := g.ownType? source,
          storage := g.storage } := rfl

theorem isInitialized_marked (source : List Char) (g : BindingGroup) :
    (g.marked source).isInitialized = g.value.isSome := rfl

/-- The bindings of groups with their effective types. -/
def bindings (source : List Char) : List BindingGroup → List Binding
  | [] => []
  | g :: later =>
    { pattern := .ofText (g.pattern.text source),
      declaredType := effectiveType? source (g :: later), storage := g.storage }
      :: bindings source later

end BindingGroup

/-- **The parts of a property declaration**: its modifiers, if there are any,
the keyword, and one or more bindings. -/
structure PropertyClause where
  modifiers : Option Node
  keyword : Node
  groups : List BindingGroup
  /-- The parts of the bindings. -/
  inner : List Node
  kind_modifiers : ∀ m ∈ modifiers, m.kind = "modifiers"
  kind_keyword : keyword.kind = "value_binding_pattern"
  groups_ne_nil : groups ≠ []
  listed : Node.CommaList BindingGroup.parts groups inner

namespace PropertyClause

/-- All parts, in order. -/
def parts (c : PropertyClause) : List Node := c.modifiers.toList ++ c.keyword :: c.inner

/-- The keyword is `let`. -/
def isConstant (source : List Char) (c : PropertyClause) : Bool :=
  (Text.words (c.keyword.text source)).contains "let"

end PropertyClause

/-! ## The pass from the front -/

namespace PropertyReading

/-- A part of another kind is passed over. -/
theorem step_of_not_mem_kinds {part : Node} (h : part.kind ∉ kinds) (r : PropertyReading) :
    step source r part = r := by
  unfold step
  split <;> simp_all [kinds]

variable {part : Node} (r : PropertyReading) (m : MarkedBinding) (ms : List MarkedBinding)

/-- The keyword tells the mutability. -/
theorem step_keyword (h : part.kind = "value_binding_pattern") :
    step source r part
      = if (Text.words (part.text source)).contains "let" then { r with mutability := .immutable }
        else r := by
  simp only [step, h]

/-- A pattern opens a binding. -/
theorem step_pattern (h : part.kind = "pattern") :
    step source r part
      = { r with
          bindings := { binding := { pattern := .ofText (part.text source) } } :: r.bindings } := by
  simp only [step, h]

/-- An equals sign marks the last binding. -/
theorem step_sign (h : part.kind = "=") :
    step source { r with bindings := m :: ms } part
      = { r with bindings := { m with isInitialized := true } :: ms } := by
  simp only [step, h, updateLast]

/-- An annotation is that of the last binding. -/
theorem step_typePart (h : part.kind = "type_annotation") :
    step source { r with bindings := m :: ms } part
      = { r with
          bindings := { m with binding.declaredType := annotatedType? (part.text source) }
            :: ms } := by
  simp only [step, h, updateLast]

/-- A block of accessors is that of the last binding. -/
theorem step_computed (h : part.kind = "computed_property") :
    step source { r with bindings := m :: ms } part
      = { r with bindings := { m with binding.storage := .ofComputed part } :: ms } := by
  simp only [step, h, updateLast]

/-- A block of observers is that of the last binding. -/
theorem step_observed (h : part.kind = "willset_didset_block") :
    step source { r with bindings := m :: ms } part
      = { r with bindings := { m with binding.storage := .observed } :: ms } := by
  simp only [step, h, updateLast]

end PropertyReading

namespace BindingGroup

variable (g : BindingGroup) (r : PropertyReading) (ms : List MarkedBinding)

/-- Its annotation gives the binding its own type. -/
theorem foldl_step_typePart (pattern : Pattern) :
    g.typePart.toList.foldl (PropertyReading.step source)
        { r with bindings := { binding := { pattern } } :: ms }
      = { r with
          bindings := { binding := { pattern, declaredType := g.ownType? source } } :: ms } := by
  unfold ownType?
  cases ha : g.typePart with
  | none => rfl
  | some a =>
    rw [Option.toList_some, List.foldl_cons, List.foldl_nil,
      PropertyReading.step_typePart r _ _ (g.kind_typePart a ha), Option.bind_some]

/-- Its value marks the binding, by the equals sign; the value itself is passed
over. -/
theorem foldl_step_value (b : Binding) :
    (g.value.toList.flatMap fun v => [v.1, v.2]).foldl (PropertyReading.step source)
        { r with bindings := { binding := b } :: ms }
      = { r with bindings := { binding := b, isInitialized := g.value.isSome } :: ms } := by
  cases hv : g.value with
  | none => rfl
  | some v =>
    obtain ⟨hsign, hplain⟩ := g.kind_value v hv
    rw [Option.toList_some, List.flatMap_singleton, List.foldl_cons, List.foldl_cons,
      List.foldl_nil, PropertyReading.step_sign r _ _ hsign,
      PropertyReading.step_of_not_mem_kinds hplain, Option.isSome_some]

/-- Its block tells how the binding keeps its value. -/
theorem foldl_step_block (pattern : Pattern) (type : Option String) (isInitialized : Bool) :
    g.block.toList.foldl (PropertyReading.step source)
        { r with
          bindings := { binding := { pattern, declaredType := type }, isInitialized } :: ms }
      = { r with
          bindings := { binding := { pattern, declaredType := type, storage := g.storage },
                        isInitialized } :: ms } := by
  unfold storage
  cases hb : g.block with
  | none => rfl
  | some b =>
    rw [Option.toList_some, List.foldl_cons, List.foldl_nil]
    rcases g.kind_block b hb with hkind | hkind
    · rw [PropertyReading.step_computed r _ _ hkind]
      simp only [hkind, if_true]
    · rw [PropertyReading.step_observed r _ _ hkind]
      simp only [hkind, String.reduceEq, if_false]

/-- **One group** adds its binding, with all that is its own. -/
theorem foldl_step_parts :
    g.parts.foldl (PropertyReading.step source) r
      = { r with bindings := g.marked source :: r.bindings } := by
  rw [parts, List.foldl_cons, PropertyReading.step_pattern r g.kind_pattern, List.foldl_append,
    foldl_step_typePart, List.foldl_append, foldl_step_value, foldl_step_block]
  rfl

/-- **All groups** add their bindings, the last one in front. -/
theorem foldl_step_of_commaList {groups : List BindingGroup} {inner : List Node}
    (h : Node.CommaList parts groups inner) (r : PropertyReading) :
    inner.foldl (PropertyReading.step source) r
      = { r with bindings := (groups.map (marked source)).reverse ++ r.bindings } := by
  have hcomma : ∀ (r : PropertyReading) (comma : Node), comma.kind = "," →
      PropertyReading.step source r comma = r := fun r comma h =>
    PropertyReading.step_of_not_mem_kinds (by rw [h]; decide) r
  rw [h.foldl_eq hcomma]
  simp only [foldl_step_parts]
  clear h
  induction groups generalizing r with
  | nil => rfl
  | cons g groups ih =>
    rw [List.foldl_cons, ih, List.map_cons, List.reverse_cons, List.append_assoc,
      List.singleton_append]

/-! ## The pass from the back -/

/-- **The types of the bindings**, and the type that would reach further to the
front, are the effective types of the groups. -/
theorem shareTypes_map (source : List Char) (groups : List BindingGroup) :
    shareTypes (groups.map (marked source))
      = (bindings source groups, effectiveType? source groups) := by
  induction groups with
  | nil => rfl
  | cons g later ih =>
    rw [List.map_cons, shareTypes_cons, ih, binding_marked, isInitialized_marked, bindings,
      effectiveType?]

end BindingGroup

/-! ## The declaration -/

namespace PropertyClause

/-- **The property that is read** from the parts of a declaration. -/
theorem ofNode_eq (c : PropertyClause) {n : Node} (h : n.children = c.parts) :
    Property.ofNode source n
      = { mutability := if c.isConstant source then .immutable else .mutable,
          bindings := BindingGroup.bindings source c.groups,
          isStatic := n.isTypeMember source } := by
  have hmodifiers : c.modifiers.toList.foldl (PropertyReading.step source) {} = {} := by
    cases hm : c.modifiers with
    | none => rfl
    | some m =>
      have hplain : m.kind ∉ PropertyReading.kinds := by
        rw [c.kind_modifiers m hm]
        decide
      rw [Option.toList_some, List.foldl_cons, List.foldl_nil,
        PropertyReading.step_of_not_mem_kinds hplain]
  have hreading : n.children.foldl (PropertyReading.step source) {}
      = { mutability := if c.isConstant source then .immutable else .mutable,
          bindings := (c.groups.map (BindingGroup.marked source)).reverse } := by
    rw [h, parts, List.foldl_append, hmodifiers, List.foldl_cons,
      PropertyReading.step_keyword _ c.kind_keyword, BindingGroup.foldl_step_of_commaList c.listed]
    unfold isConstant
    split
    · rw [List.append_nil]
    · rw [List.append_nil]
  unfold Property.ofNode
  rw [hreading]
  dsimp only
  rw [List.reverse_reverse, BindingGroup.shareTypes_map]
  -- there is a group, so the name of the node is not asked for
  obtain ⟨g, later, hgroups⟩ := List.exists_cons_of_ne_nil c.groups_ne_nil
  rw [hgroups]
  rfl

/-! ## The accessors -/

/-- **The accessor of the first of some groups**, if its pattern is a name and
it has an effective type. -/
def accessor? (source : List Char) (n : Node) (c : PropertyClause) (g : BindingGroup)
    (later : List BindingGroup) : Option AccessorProperty :=
  if Naming.isIdentifier (Text.trim (g.pattern.text source)) then
    (BindingGroup.effectiveType? source (g :: later)).map fun type =>
      { name := "__test_" ++ Naming.unescape (Text.trim (g.pattern.text source)), type,
        isStatic := (n.keywords source).contains "static" || (n.keywords source).contains "class",
        target := "self." ++ Text.trim (g.pattern.text source),
        settable := !c.isConstant source && !g.isReadOnly }
  else none

/-- **The accessors of groups**, in their order. -/
def accessorsOf (source : List Char) (n : Node) (c : PropertyClause) :
    List BindingGroup → List AccessorProperty
  | [] => []
  | g :: later => (c.accessor? source n g later).toList ++ accessorsOf source n c later

/-- The block of a group tells whether it can be assigned. -/
theorem isSettable_eq (b : Binding) (g : BindingGroup) (hb : b.storage = g.storage)
    (isConstant : Bool) :
    b.isSettable (if isConstant then .immutable else .mutable) = (!isConstant && !g.isReadOnly) := by
  cases isConstant with
  | true => rfl
  | false =>
    have hstorage : b.storage = .computed false ↔ g.isReadOnly = true := by
      rw [hb, BindingGroup.storage, BindingGroup.isReadOnly]
      cases g.block with
      | none => simp
      | some block =>
        by_cases hkind : block.kind = "computed_property"
        · simp [hkind, Storage.ofComputed]
        · simp [hkind]
    rw [if_neg Bool.false_ne_true, Binding.isSettable, Bool.not_false, Bool.true_and]
    simp [hstorage]

/-- Whether the property belongs to the type itself is told by two words. -/
theorem isTypeMember_eq (source : List Char) (n : Node) :
    n.isTypeMember source
      = ((n.keywords source).contains "static" || (n.keywords source).contains "class") := by
  rw [Bool.eq_iff_iff, Node.isTypeMember, List.any_eq_true, Bool.or_eq_true,
    List.contains_iff_mem, List.contains_iff_mem]
  constructor
  · rintro ⟨k, hk, hword⟩
    rcases Bool.or_eq_true_iff.mp hword with h | h
    · exact Or.inl (beq_iff_eq.mp h ▸ hk)
    · exact Or.inr (beq_iff_eq.mp h ▸ hk)
  · rintro (h | h)
    · exact ⟨_, h, rfl⟩
    · exact ⟨_, h, rfl⟩

/-- **One binding** gives the accessor of its group. -/
theorem accessor?_binding (n : Node) (c : PropertyClause) (g : BindingGroup)
    (later : List BindingGroup) (bindings : List Binding) :
    ({ pattern := .ofText (g.pattern.text source),
       declaredType := BindingGroup.effectiveType? source (g :: later),
       storage := g.storage } : Binding).accessor?
        { mutability := if c.isConstant source then .immutable else .mutable, bindings,
          isStatic := n.isTypeMember source }
      = c.accessor? source n g later := by
  unfold accessor? Binding.accessor? Pattern.ofText
  by_cases hname : Naming.isIdentifier (Text.trim (g.pattern.text source)) = true
  · rw [if_pos hname, if_pos hname]
    cases BindingGroup.effectiveType? source (g :: later) with
    | none => rfl
    | some type =>
      dsimp only
      rw [if_pos hname, isSettable_eq _ g rfl, isTypeMember_eq]
      rfl
  · rw [if_neg hname, if_neg hname]

/-- **All bindings** give the accessors of their groups, in order. -/
theorem filterMap_accessor?_bindings (n : Node) (c : PropertyClause) (all : List Binding)
    (groups : List BindingGroup) :
    (BindingGroup.bindings source groups).filterMap (fun b =>
        b.accessor?
          { mutability := if c.isConstant source then .immutable else .mutable, bindings := all,
            isStatic := n.isTypeMember source })
      = c.accessorsOf source n groups := by
  induction groups with
  | nil => rfl
  | cons g later ih =>
    rw [BindingGroup.bindings, List.filterMap_cons, accessor?_binding, ih, accessorsOf]
    cases c.accessor? source n g later with
    | none => rfl
    | some a => rfl

end PropertyClause

/-! ## The type in an annotation -/

/-- Blanks at the end hold no word. -/
theorem Chars.words_trimEnd (cs : List Char) : words (trimEnd cs) = words cs := by
  show words (cs.rdropWhile isBlank) = words cs
  induction cs using List.reverseRecOn with
  | nil => rfl
  | append_singleton cs c ih =>
    by_cases hc : isBlank c = true
    · rw [List.rdropWhile_concat_pos _ _ _ hc, ih, words_append_cons hc, words_nil,
        List.append_nil]
    · rw [List.rdropWhile_concat_neg _ _ _ hc]

/-- **An annotation without its colon**, and with its blanks collapsed. -/
theorem annotatedType?_of_colon {text : String} {type : List Char}
    (htext : text.toList = ':' :: type) (hcolon : type.head? ≠ some ':') :
    annotatedType? text
      = if Chars.collapse type = [] then none else some (String.ofList (Chars.collapse type)) := by
  unfold annotatedType?
  dsimp only
  rw [htext, Chars.dropWhile_trim_cons (by decide) hcolon, Chars.collapse, Chars.words_trimEnd]
  rfl

/-! ## The accessors of a declaration -/

/-- **A property declaration gives exactly the accessors of its bindings.** Let
the parts of a node be those of a property declaration, and let a request be
about the declaration that is read from it. Its accessors are those of the
groups, in their order, whatever the options are, and there is no diagnostic: a
group whose pattern is a name gives an accessor if it has an effective type,
and no other group gives one. The type in an annotation is what follows the
colon, with its blanks collapsed. -/
theorem property_accessors_of_clause (source : List Char) (n : Node) (c : PropertyClause)
    (o : ExpansionOptions) (q : Request) (hkind : n.kind = "property_declaration")
    (h : n.children = c.parts) (hq : q.declaration = Declaration.ofNode source n) :
    (q.expand o).accessors
        = (c.accessorsOf source n c.groups).map (fun p =>
            { attributes := q.attributes, kind := .property p })
      ∧ (q.expand o).diagnostics = []
      ∧ ∀ g ∈ c.groups, ∀ a ∈ g.typePart, ∀ type : List Char,
          (a.text source).toList = ':' :: type → type.head? ≠ some ':' →
          g.ownType? source
            = if Chars.collapse type = [] then none
              else some (String.ofList (Chars.collapse type)) := by
  have hdeclaration : q.declaration = .property (Property.ofNode source n) := by
    simp only [hq, Declaration.ofNode, hkind]
  have haccessors : q.declaration.accessorKinds
      = (c.accessorsOf source n c.groups).map AccessorKind.property := by
    rw [hdeclaration, Declaration.accessorKinds, c.ofNode_eq h, Property.accessors,
      PropertyClause.filterMap_accessor?_bindings]
  have hexpand := Request.expand_of_acceptance
    (Request.rejection?_eq_none_of_not_initializer (o := o)
      (Or.inr fun i hi => Declaration.noConfusion (hdeclaration.symm.trans hi)))
  refine ⟨?_, by rw [hexpand], fun g hg a ha type htext hcolon => ?_⟩
  · rw [hexpand, Request.accessors, haccessors, List.map_map]
    rfl
  · rw [BindingGroup.ownType?, Option.mem_def.mp ha, Option.bind_some,
      annotatedType?_of_colon htext hcolon]

/-- A property with a binding that takes the type behind it, one with that type,
a pattern that is no name, a value to infer a type from, and a block. -/
def severalSource : String := "@V static var a, b: Int, (c): X, e = 1, `f`: S \x7b 0 \x7d"

/-- A binding without value and block. -/
def plainGroup (pattern : ByteRange) (typePart : Option ByteRange) : BindingGroup where
  pattern := .mk "pattern" pattern true [] []
  typePart := typePart.map fun r => .mk "type_annotation" r true [] []
  value := none
  block := none
  kind_pattern := rfl
  kind_typePart := by
    intro a ha
    obtain ⟨r, -, rfl⟩ := Option.map_eq_some_iff.mp ha
    rfl
  kind_value := nofun
  kind_block := nofun

/-- The binding with a value. -/
def valueGroup : BindingGroup :=
  { plainGroup ⟨33, 34⟩ none with
    value := some (.mk "=" ⟨35, 36⟩ false [] [], .mk "integer_literal" ⟨37, 38⟩ true [] [])
    kind_value := by simp [Node.kind, PropertyReading.kinds] }

/-- The binding with a block, which has no setter. -/
def blockGroup : BindingGroup :=
  { plainGroup ⟨40, 43⟩ (some ⟨43, 46⟩) with
    block := some (.mk "computed_property" ⟨47, 52⟩ true [] [])
    kind_block := by simp [Node.kind] }

/-- The parts of the property. -/
def severalClause : PropertyClause where
  modifiers := some (.mk "modifiers" ⟨0, 9⟩ true []
    [.mk "attribute" ⟨0, 2⟩ true [] [], .mk "property_modifier" ⟨3, 9⟩ true [] []])
  keyword := .mk "value_binding_pattern" ⟨10, 13⟩ true [] []
  groups :=
    [plainGroup ⟨14, 15⟩ none, plainGroup ⟨17, 18⟩ (some ⟨18, 23⟩),
      plainGroup ⟨25, 28⟩ (some ⟨28, 31⟩), valueGroup, blockGroup]
  inner :=
    (plainGroup ⟨14, 15⟩ none).parts ++ .mk "," ⟨15, 16⟩ false [] []
      :: ((plainGroup ⟨17, 18⟩ (some ⟨18, 23⟩)).parts ++ .mk "," ⟨23, 24⟩ false [] []
      :: ((plainGroup ⟨25, 28⟩ (some ⟨28, 31⟩)).parts ++ .mk "," ⟨31, 32⟩ false [] []
      :: (valueGroup.parts ++ .mk "," ⟨38, 39⟩ false [] [] :: blockGroup.parts)))
  kind_modifiers := by simp [Node.kind]
  kind_keyword := rfl
  groups_ne_nil := List.cons_ne_nil _ _
  listed := .more _ rfl (.more _ rfl (.more _ rfl (.more _ rfl (.one _))))

/-- The tree of the property. -/
def severalTree : Node := .mk "property_declaration" ⟨0, 52⟩ true [] severalClause.parts

/-- Of the five bindings, three have an accessor. The first takes the type of
the second, and the last cannot be assigned. -/
theorem property_accessors_of_clause_severalTree :
    severalTree.kind = "property_declaration" ∧ severalTree.children = severalClause.parts
      ∧ (((Request.ofDeclaration (Declaration.ofNode severalSource.toList severalTree)).expand
            {}).accessors.map Accessor.kind
          = [.property { name := "__test_a", type := "Int", isStatic := true, target := "self.a",
                         settable := true },
              .property { name := "__test_b", type := "Int", isStatic := true, target := "self.b",
                          settable := true },
              .property { name := "__test_f", type := "S", isStatic := true, target := "self.`f`",
                          settable := false }])
      ∧ (plainGroup ⟨17, 18⟩ (some ⟨18, 23⟩)).ownType? severalSource.toList = some "Int" := by
  obtain ⟨haccessors, -, htypes⟩ := property_accessors_of_clause severalSource.toList severalTree
    severalClause {} (Request.ofDeclaration (Declaration.ofNode severalSource.toList severalTree))
    rfl rfl rfl
  refine ⟨rfl, rfl, ?_, ?_⟩
  · rw [haccessors]
    decide +kernel
  · rw [htypes (plainGroup ⟨17, 18⟩ (some ⟨18, 23⟩)) (by simp [severalClause])
      (.mk "type_annotation" ⟨18, 23⟩ true [] []) rfl " Int".toList (by decide +kernel)
      (by decide +kernel)]
    decide +kernel

end TestAccess
