import TestAccess.Proofs.ExpansionRuns
import TestAccess.Proofs.MarkerNames
import TestAccess.Proofs.SharedTypes

/-!
# Which accessors have a legal name

Whether a member gets an accessor is asked of its name *without* the blanks and
the backticks around it. The name of the accessor, and the expression by which
a property is reached, are made of the name as it is written. Only the
backticks are taken off for it, and only where they are the first and the last
character.

So there are two views of a name, and this module compares them. The identifier
in a name (`Naming.identifier`) is always a word of letters, numbers and
underscores. What goes into the accessor is the identifier exactly if there are
no blanks around the name as it is written; and if there are some, they go into
the accessor too, with the backticks that they hide (`unescape_eq_identifier_iff`).

A scan never meets the second case, since it trims the names that it reads. A
request that was written by hand may (`accessor_names_follow_members`).
-/

namespace TestAccess

/-! ## Words -/

/-- The codes of the blank characters. -/
def blankCodes : List Nat :=
  List.range' 0x09 5 ++ List.range' 0x2000 11
    ++ [0x20, 0x85, 0xA0, 0x1680, 0x2028, 0x2029, 0x202F, 0x205F, 0x3000]

/-- A blank is neither a letter nor a number. -/
theorem isAlphanumeric_of_isBlank {c : Char} (h : isBlank c = true) : isAlphanumeric c = false := by
  have hcode : c.toNat ∈ blankCodes := by
    simp only [isBlank, Bool.or_eq_true, Bool.and_eq_true, decide_eq_true_eq, beq_iff_eq] at h
    simp only [blankCodes, List.mem_append, List.mem_range'_1, List.mem_cons, List.not_mem_nil,
      or_false]
    omega
  have hnone : ∀ n ∈ blankCodes, isAlphanumeric (Char.ofNat n) = false := by decide +kernel
  rw [← Char.ofNat_toNat c]
  exact hnone _ hcode

namespace Naming

/-- **A word**: letters, numbers and underscores. -/
def IsWord (text : String) : Prop := ∀ c ∈ text.toList, c = '_' ∨ isAlphanumeric c = true

instance (text : String) : Decidable (IsWord text) :=
  List.decidableBAll _ text.toList

/-- A text with neither a blank nor a backtick in it. -/
def IsBare (text : String) : Prop := ∀ c ∈ text.toList, isBlank c = false ∧ c ≠ '`'

instance (text : String) : Decidable (IsBare text) :=
  List.decidableBAll _ text.toList

/-- **The identifier in a name**: the name without the blanks and the backticks
around it. -/
def identifier (name : String) : String := unescape (Text.trim name)

/-- There is neither a blank nor a backtick in a word. -/
theorem IsWord.isBare {text : String} (h : IsWord text) : IsBare text := by
  intro c hc
  have hblank : ∀ d : Char, isBlank d = true → ¬ (d = '_' ∨ isAlphanumeric d = true) := by
    rintro d hd (rfl | hword)
    · exact absurd hd (by decide)
    · rw [isAlphanumeric_of_isBlank hd] at hword
      exact absurd hword Bool.false_ne_true
  refine ⟨Bool.eq_false_iff.mpr fun hc' => hblank c hc' (h c hc), ?_⟩
  rintro rfl
  exact absurd (h _ hc) (by decide +kernel)

/-- A word behind a word is a word. -/
theorem isWord_append_iff {lead : String} (h : IsWord lead) (text : String) :
    IsWord (lead ++ text) ↔ IsWord text := by
  unfold IsWord
  rw [String.toList_append, List.forall_mem_append]
  exact and_iff_right h

theorem isBare_append_iff {lead : String} (h : IsBare lead) (text : String) :
    IsBare (lead ++ text) ↔ IsBare text := by
  unfold IsBare
  rw [String.toList_append, List.forall_mem_append]
  exact and_iff_right h

/-! ## The name as it is written, and the identifier in it -/

/-- **The identifier in a name that passes as one** is a word. -/
theorem isWord_identifier {name : String} (h : isIdentifier name = true) :
    IsWord (identifier name) := by
  intro c hc
  rw [identifier, toList_unescape, Text.toList_trim] at hc
  exact Chars.isAlphanumeric_of_mem_unescape_trim h hc

/-- A name with no blank around it has its identifier taken out by unescaping. -/
theorem unescape_of_trim_eq {name : String} (h : Text.trim name = name) :
    unescape name = identifier name := by
  rw [identifier, h]

/-- A name without a blank in it has none around it. -/
theorem trim_eq_of_forall {name : String} (h : ∀ c ∈ name.toList, isBlank c = false) :
    Text.trim name = name := by
  rw [Text.trim, Chars.trim_of_forall h, String.ofList_toList]

/-- **Blanks around a name stay** when it is unescaped: if none are left, there
were none. -/
theorem trim_eq_of_isBare_unescape {name : String} (h : IsBare (unescape name)) :
    Text.trim name = name := by
  refine trim_eq_of_forall fun c hc => ?_
  rcases Chars.mem_unescape_or_eq hc with hc | rfl
  · exact (h c (by rwa [toList_unescape])).1
  · decide

variable {name : String}

/-- **What goes into an accessor is the identifier** exactly if there are no
blanks around the name. -/
theorem unescape_eq_identifier_iff (h : isIdentifier name = true) :
    unescape name = identifier name ↔ Text.trim name = name := by
  refine ⟨fun heq => trim_eq_of_isBare_unescape ?_, unescape_of_trim_eq⟩
  rw [heq]
  exact (isWord_identifier h).isBare

/-- It is a word exactly then. -/
theorem isWord_unescape_iff (h : isIdentifier name = true) :
    IsWord (unescape name) ↔ Text.trim name = name := by
  refine ⟨fun hword => trim_eq_of_isBare_unescape hword.isBare, fun htrim => ?_⟩
  rw [unescape_of_trim_eq htrim]
  exact isWord_identifier h

/-- And exactly then it has neither a blank nor a backtick. -/
theorem isBare_unescape_iff (h : isIdentifier name = true) :
    IsBare (unescape name) ↔ Text.trim name = name := by
  refine ⟨trim_eq_of_isBare_unescape, fun htrim => ?_⟩
  exact ((isWord_unescape_iff h).mpr htrim).isBare

/-- A name is what unescaping leaves of it, or has backticks around that. -/
theorem eq_unescape_or_eq (name : String) :
    name = unescape name ∨ name = "`" ++ unescape name ++ "`" := by
  simp only [← String.toList_inj, String.toList_append, toList_unescape]
  unfold Chars.unescape
  split
  · rename_i rest hname
    split
    · rename_i inner hinner
      rw [List.reverse_eq_cons_iff] at hinner
      exact Or.inr (by rw [hname, hinner]; rfl)
    · exact Or.inl rfl
  · exact Or.inl rfl

/-- **A name is the identifier in it, or has backticks around that**, exactly
if there are no blanks around the name. -/
theorem eq_identifier_or_eq_iff (h : isIdentifier name = true) :
    name = identifier name ∨ name = "`" ++ identifier name ++ "`" ↔ Text.trim name = name := by
  constructor
  · intro hname
    have hbare := (isWord_identifier h).isBare
    refine trim_eq_of_forall fun c hc => ?_
    rcases hname with hname | hname
    · rw [hname] at hc
      exact (hbare c hc).1
    · rw [hname, String.toList_append, String.toList_append, List.mem_append,
        List.mem_append] at hc
      rcases hc with (hc | hc) | hc
      · rw [List.mem_singleton.mp hc]
        decide
      · exact (hbare c hc).1
      · rw [List.mem_singleton.mp hc]
        decide
  · intro htrim
    rw [← unescape_of_trim_eq htrim]
    exact eq_unescape_or_eq name

end Naming

/-! ## Accessors and the names they are made for -/

/-- The name of a binding that gets an accessor, as it is written. -/
def Binding.exposedName? (b : Binding) : Option String :=
  match b.pattern, b.declaredType with
  | .identifier name, some _ => if Naming.isIdentifier name then some name else none
  | _, _ => none

/-- **The names that a property or a method is exposed under**, as they are
written: one for each accessor. -/
def Declaration.exposedNames : Declaration → List String
  | .property p => p.bindings.filterMap Binding.exposedName?
  | .method m =>
    if Naming.isIdentifier m.name && Forwarding.isForwardable m.parameters then [m.name] else []
  | .initializer _ => []
  | .unrecognized _ => []

/-- What the name of an accessor begins with. -/
def AccessorKind.lead : AccessorKind → String
  | .property _ => "__test_"
  | .function _ => "_test_"

/-- **An accessor follows the name** of a member: it is named after the
identifier in it, and reaches the member by it, exactly if there are no blanks
around the name. -/
structure Accessor.FollowsName (a : Accessor) (name : String) : Prop where
  isIdentifier : Naming.isIdentifier name = true
  isWord_identifier : Naming.IsWord (Naming.identifier name)
  /-- The accessor is named after the identifier. -/
  name_eq_iff : a.name = a.kind.lead ++ Naming.identifier name ↔ Text.trim name = name
  /-- Its name is a word. -/
  isWord_iff : Naming.IsWord a.name ↔ Text.trim name = name
  /-- There is neither a blank nor a backtick in it. -/
  isBare_iff : Naming.IsBare a.name ↔ Text.trim name = name
  /-- A property is reached by the identifier, with backticks around it or
  without. -/
  target_eq_iff : ∀ p, a.kind = .property p →
    (p.target = "self." ++ Naming.identifier name
        ∨ p.target = "self." ++ ("`" ++ Naming.identifier name ++ "`")
      ↔ Text.trim name = name)

/-- What the name of an accessor begins with is a word itself. -/
theorem AccessorKind.isWord_lead (k : AccessorKind) : Naming.IsWord k.lead := by
  cases k with
  | property p => exact show Naming.IsWord "__test_" by decide +kernel
  | function f => exact show Naming.IsWord "_test_" by decide +kernel

/-- **An accessor follows the name that it is made of.** -/
theorem Accessor.followsName {a : Accessor} {name : String}
    (h : Naming.isIdentifier name = true)
    (hname : a.name = a.kind.lead ++ Naming.unescape name)
    (htarget : ∀ p, a.kind = .property p → p.target = "self." ++ name) : a.FollowsName name where
  isIdentifier := h
  isWord_identifier := Naming.isWord_identifier h
  name_eq_iff := by
    rw [hname, String.append_right_inj]
    exact Naming.unescape_eq_identifier_iff h
  isWord_iff := by
    rw [hname, Naming.isWord_append_iff a.kind.isWord_lead]
    exact Naming.isWord_unescape_iff h
  isBare_iff := by
    rw [hname, Naming.isBare_append_iff a.kind.isWord_lead.isBare]
    exact Naming.isBare_unescape_iff h
  target_eq_iff := by
    intro p hp
    rw [htarget p hp, String.append_right_inj, String.append_right_inj]
    exact Naming.eq_identifier_or_eq_iff h

/-- **One binding** has an accessor that follows its name, or neither name nor
accessor. -/
theorem Binding.accessor?_followsName (b : Binding) (p : Property) (attributes : List String) :
    (b.accessor? p = none ∧ b.exposedName? = none)
      ∨ ∃ access name, b.accessor? p = some access ∧ b.exposedName? = some name
          ∧ (⟨attributes, .property access⟩ : Accessor).FollowsName name := by
  obtain ⟨pattern, type, storage⟩ := b
  cases pattern with
  | destructured text => exact Or.inl ⟨rfl, rfl⟩
  | identifier name =>
    cases type with
    | none => exact Or.inl ⟨rfl, rfl⟩
    | some type =>
      unfold accessor? exposedName?
      dsimp only
      by_cases h : Naming.isIdentifier name = true
      · rw [if_pos h, if_pos h]
        refine Or.inr ⟨_, name, rfl, rfl, Accessor.followsName h rfl fun access haccess => ?_⟩
        rw [← AccessorKind.property.inj haccess]
      · rw [if_neg h, if_neg h]
        exact Or.inl ⟨rfl, rfl⟩

/-- **All bindings** have accessors that follow their names, in order. -/
theorem Property.forall₂_followsName (p : Property) (attributes : List String)
    (bindings : List Binding) :
    List.Forall₂ Accessor.FollowsName
      ((bindings.filterMap fun b => b.accessor? p).map fun access =>
        (⟨attributes, .property access⟩ : Accessor))
      (bindings.filterMap Binding.exposedName?) := by
  induction bindings with
  | nil => exact List.Forall₂.nil
  | cons b bindings ih =>
    rw [List.filterMap_cons, List.filterMap_cons]
    rcases b.accessor?_followsName p attributes with
      ⟨haccess, hname⟩ | ⟨access, name, haccess, hname, h⟩
    · rw [haccess, hname]
      exact ih
    · rw [haccess, hname]
      exact List.Forall₂.cons h ih

/-- The accessors of a property or a method follow its names. -/
theorem Request.forall₂_followsName (q : Request) (h : ∀ i, q.declaration ≠ .initializer i) :
    List.Forall₂ Accessor.FollowsName q.accessors q.declaration.exposedNames := by
  unfold Request.accessors
  cases hdeclaration : q.declaration with
  | property p =>
    rw [Declaration.accessorKinds, List.map_map]
    exact p.forall₂_followsName q.attributes p.bindings
  | method m =>
    rw [Declaration.accessorKinds, Method.accessor?, Declaration.exposedNames]
    split
    · rename_i hcan
      refine List.Forall₂.cons (Accessor.followsName (Bool.and_eq_true_iff.mp hcan).1 rfl ?_)
        List.Forall₂.nil
      exact fun p hp => absurd hp (by simp)
    · exact List.Forall₂.nil
  | initializer i => exact absurd hdeclaration (h i)
  | unrecognized kind => exact List.Forall₂.nil

/-- The accessor of an initializer has a name of its own. -/
theorem Request.name_of_mem_accessors {q : Request} {i : Initializer}
    (h : q.declaration = .initializer i) {a : Accessor} (ha : a ∈ q.accessors) :
    a.name = "_test_init" := by
  rw [Request.accessors, h, Declaration.accessorKinds, Initializer.accessor?] at ha
  split at ha
  · rw [List.mem_singleton.mp ha]
    rfl
  · exact absurd ha (List.not_mem_nil)

/-! ## Names in a source -/

/-- Trimming twice is trimming once. -/
theorem Text.trim_trim (text : String) : trim (trim text) = trim text := by
  rw [trim, toList_trim, Chars.trim_trim]
  rfl

namespace PropertyReading

/-- **A pattern was read from a text.** -/
def IsRead (p : Pattern) : Prop := ∃ text, p = .ofText text

theorem isRead_ofText (text : String) : IsRead (.ofText text) := ⟨text, rfl⟩

/-- All patterns of a reading were read from texts. -/
def AllRead (r : PropertyReading) : Prop := ∀ m ∈ r.bindings, IsRead m.binding.pattern

/-- A change that leaves the pattern alone. -/
theorem AllRead.updateLast {r : PropertyReading} (h : r.AllRead)
    {f : MarkedBinding → MarkedBinding} (hf : ∀ m, (f m).binding.pattern = m.binding.pattern) :
    (r.updateLast f).AllRead := by
  unfold PropertyReading.updateLast
  split
  · exact h
  · rename_i m ms hbindings
    rw [AllRead, hbindings, List.forall_mem_cons] at h
    refine List.forall_mem_cons.mpr ⟨?_, h.2⟩
    rw [hf]
    exact h.1

/-- **One part** leaves the patterns as they are, or adds one that it reads. -/
theorem AllRead.step {r : PropertyReading} (h : r.AllRead) (source : List Char) (part : Node) :
    (r.step source part).AllRead := by
  unfold PropertyReading.step
  split
  · split
    · exact h
    · exact h
  · refine List.forall_mem_cons.mpr ⟨?_, h⟩
    dsimp only
    exact isRead_ofText _
  · exact h.updateLast fun _ => rfl
  · exact h.updateLast fun _ => rfl
  · exact h.updateLast fun _ => rfl
  · exact h.updateLast fun _ => rfl
  · exact h

/-- **All parts**, one after another. -/
theorem AllRead.foldl {r : PropertyReading} (h : r.AllRead) (source : List Char)
    (parts : List Node) : (parts.foldl (PropertyReading.step source) r).AllRead := by
  induction parts generalizing r with
  | nil => exact h
  | cons part parts ih => exact ih (h.step source part)

end PropertyReading

/-- **The patterns of a property in a source** were read from texts. -/
theorem Property.isRead_pattern_ofNode (source : List Char) (n : Node) {b : Binding}
    (hb : b ∈ (Property.ofNode source n).bindings) : PropertyReading.IsRead b.pattern := by
  have hall : (n.children.foldl (PropertyReading.step source) {}).AllRead :=
    PropertyReading.AllRead.foldl (fun m hm => absurd hm (List.not_mem_nil)) source n.children
  have hshared : ∀ b ∈ (shareTypes
        (n.children.foldl (PropertyReading.step source) {}).bindings.reverse).1,
      PropertyReading.IsRead b.pattern := by
    intro b hb
    have hpattern := List.mem_map_of_mem (f := Binding.pattern) hb
    rw [map_shareTypes (fun _ _ => rfl), List.map_map] at hpattern
    obtain ⟨m, hm, hm'⟩ := List.mem_map.mp hpattern
    rw [← hm']
    exact hall m (List.mem_reverse.mp hm)
  unfold Property.ofNode at hb
  dsimp only at hb
  split at hb
  · rw [List.mem_singleton.mp hb]
    dsimp only
    exact PropertyReading.isRead_ofText _
  · exact hshared b hb

/-- A name that was read from a text has no blanks around it. -/
theorem PropertyReading.IsRead.trim_eq {name : String}
    (h : PropertyReading.IsRead (.identifier name)) : Text.trim name = name := by
  obtain ⟨text, htext⟩ := h
  unfold Pattern.ofText at htext
  dsimp only at htext
  split at htext
  · rw [Pattern.identifier.inj htext]
    exact Text.trim_trim text
  · exact absurd htext (by simp)

/-- **The names of a declaration in a source** have no blanks around them. -/
theorem Declaration.trim_of_mem_exposedNames_ofNode {source : List Char} {n : Node}
    {name : String} (h : name ∈ (Declaration.ofNode source n).exposedNames) :
    Text.trim name = name := by
  unfold Declaration.ofNode at h
  split at h
  · obtain ⟨b, hb, hname⟩ := List.mem_filterMap.mp h
    have hread := Property.isRead_pattern_ofNode source n hb
    unfold Binding.exposedName? at hname
    split at hname
    · rename_i written _ hpattern _
      rw [hpattern] at hread
      split at hname
      · rw [← Option.some.inj hname]
        exact hread.trim_eq
      · exact absurd hname (by simp)
    · exact absurd hname (by simp)
  · split at h
    · rename_i m hm
      obtain ⟨part, -, hpart⟩ := Option.map_eq_some_iff.mp hm
      rw [Declaration.exposedNames] at h
      split at h
      · rw [List.mem_singleton.mp h, ← hpart]
        exact Text.trim_trim _
      · exact absurd h (List.not_mem_nil)
    · exact absurd h (List.not_mem_nil)
  · exact absurd h (List.not_mem_nil)
  · exact absurd h (List.not_mem_nil)

/-! ## Requests and sites -/

/-- **An accessor is named after its member exactly if there are no blanks
around the member's name.** The accessor of an initializer has a fixed name,
which is a word. The accessors of a property or a method follow the names that
it is exposed under, in order: an accessor has a legal name, and a property is
reached by one, exactly if there are no blanks around the name as it is
written. In the requests of a scan no name has blanks around it. -/
theorem accessor_names_follow_members (o : ExpansionOptions) (q : Request) :
    (∀ i, q.declaration = .initializer i →
        ∀ a ∈ (q.expand o).accessors, a.name = "_test_init" ∧ Naming.IsWord a.name)
      ∧ ((∀ i, q.declaration ≠ .initializer i) →
          List.Forall₂ Accessor.FollowsName (q.expand o).accessors q.declaration.exposedNames)
      ∧ ∀ (source marker : String) (root : Node), ∀ s ∈ root.scan source marker,
          ∀ name ∈ s.request.declaration.exposedNames, Text.trim name = name := by
  refine ⟨fun i hi a ha => ?_, fun hnot => ?_, fun source marker root s hs name hname => ?_⟩
  · have hmem : a ∈ q.accessors := by
      cases hrejection : q.rejection? o with
      | none => rwa [Request.expand_of_acceptance hrejection] at ha
      | some d =>
        rw [Request.expand_of_rejection hrejection] at ha
        exact absurd ha (List.not_mem_nil)
    rw [Request.name_of_mem_accessors hi hmem]
    exact ⟨rfl, by decide +kernel⟩
  · rw [Request.expand_of_acceptance
      (Request.rejection?_eq_none_of_not_initializer (Or.inr hnot))]
    exact q.forall₂_followsName hnot
  · obtain ⟨occurrence, -, hsite⟩ := (Node.mem_scan_iff ..).mp hs
    obtain ⟨-, marked, -, rfl⟩ := (Node.Occurrence.site?_eq_some_iff ..).mp hsite
    exact Declaration.trim_of_mem_exposedNames_ofNode hname

/-- A request for two variables, which was not read from a source: there are
backticks around the first name, and blanks around those of the second. -/
def paddedRequest : Request :=
  .ofDeclaration (.property
    { mutability := .mutable,
      bindings :=
        [{ pattern := .identifier "`x`", declaredType := some "Int" },
          { pattern := .identifier " `y` ", declaredType := some "Int" }] })

/-- The accessors of the request. -/
def paddedAccessors : List Accessor :=
  [{ attributes := [],
     kind := .property { name := "__test_x", type := "Int", isStatic := false, target := "self.`x`",
                         settable := true } },
    { attributes := [],
      kind := .property { name := "__test_ `y` ", type := "Int", isStatic := false,
                          target := "self. `y` ", settable := true } }]

theorem accessors_paddedRequest :
    (paddedRequest.expand {}).accessors = paddedAccessors := by decide +kernel

/-- The first accessor has a legal name, and the second has not. -/
theorem accessor_names_follow_members_paddedRequest :
    (∀ i, paddedRequest.declaration ≠ .initializer i)
      ∧ (paddedRequest.expand {}).accessors = paddedAccessors
      ∧ paddedRequest.declaration.exposedNames = ["`x`", " `y` "]
      ∧ ∀ a ∈ paddedAccessors, Naming.IsWord a.name ↔ a.name = "__test_x" := by
  have hnot : ∀ i, paddedRequest.declaration ≠ .initializer i := fun i => by
    simp [paddedRequest, Request.ofDeclaration]
  have hnames : paddedRequest.declaration.exposedNames = ["`x`", " `y` "] := by decide +kernel
  have hfollows := (accessor_names_follow_members {} paddedRequest).2.1 hnot
  rw [accessors_paddedRequest, hnames, paddedAccessors] at hfollows
  obtain ⟨hfirst, hrest⟩ := List.forall₂_cons.mp hfollows
  obtain ⟨hsecond, -⟩ := List.forall₂_cons.mp hrest
  refine ⟨hnot, accessors_paddedRequest, hnames,
    List.forall_mem_cons.mpr ⟨?_, List.forall_mem_singleton.mpr ?_⟩⟩
  · rw [hfirst.isWord_iff]
    exact iff_of_true (by decide +kernel) rfl
  · rw [hsecond.isWord_iff]
    exact iff_of_false (by decide +kernel) (by decide +kernel)

/-- **Blanks around a name go into the accessor**, with the backticks that they
hide. The name of the second variable passes as an identifier, and the
identifier in it is `y`. But its accessor is named neither after this
identifier nor by a word, and does not reach the variable by it. -/
theorem blanks_go_into_accessor_names :
    Naming.isIdentifier " `y` " = true ∧ Naming.identifier " `y` " = "y"
      ∧ ∃ a ∈ (paddedRequest.expand {}).accessors, ∃ p, a.kind = .property p
        ∧ a.name = "__test_ `y` " ∧ a.name ≠ "_test_init"
        ∧ a.name ≠ "_test_" ++ "y" ∧ a.name ≠ "__test_" ++ "y"
        ∧ ¬ Naming.IsWord a.name ∧ ¬ Naming.IsBare a.name
        ∧ p.target ≠ "self." ++ "y" ∧ p.target ≠ "self." ++ ("`" ++ "y" ++ "`") := by
  refine ⟨by decide +kernel, by decide +kernel, ?_⟩
  rw [accessors_paddedRequest]
  exact ⟨_, List.mem_cons_of_mem _ (List.mem_singleton_self _), _, rfl, by decide +kernel⟩

end TestAccess
