import TestAccess.Proofs.PropertyBindings
import TestAccess.Proofs.TreeShape

/-!
# What is kept of the signature of a method

The parts of a method declaration are one flat list, and each item of its
signature is looked up there in its own way: the name and the type of the
result by their role, the generic clause and the constraints by their kind, the
effects in one pass over all parts, and whether the method belongs to the type
itself by the words among its modifiers.

A role need not be played by one part alone. The mark of a result that is
unwrapped implicitly, as in `-> Int!`, is a part next to that of the type, and
so are the attributes of a type. The look-up by role takes the first part and
lets the others go. The text of a role, from the start of its first part to the
end of its last (`Node.roleText?`), is thus kept exactly if nothing but blanks
stands between the end of the first part and the end of the last
(`Node.collapse_first_eq_roleText_iff`).

All other items are kept for every node, and `method_keeps_signature` lists
them.
-/

namespace TestAccess

/-! ## Texts up to their blanks -/

namespace Chars

/-- The characters of a text that are not blank. -/
def ink (cs : List Char) : List Char := cs.filter fun c => !isBlank c

theorem ink_append (as bs : List Char) : ink (as ++ bs) = ink as ++ ink bs := List.filter_append ..

/-- There is no ink in a text exactly if it is blank. -/
theorem ink_eq_nil_iff (cs : List Char) : ink cs = [] ↔ ∀ c ∈ cs, isBlank c = true := by
  rw [ink, List.filter_eq_nil_iff]
  exact forall₂_congr fun c _ => by rw [Bool.not_eq_true', Bool.not_eq_false]

/-- **The words of a text** hold its ink, and nothing else. -/
theorem flatten_words (cs : List Char) : (words cs).flatten = ink cs := by
  rw [words, List.flatten_filter_ne_nil, flatten_pieces]
  rfl

/-- Texts joined by a blank have the ink of each of them. -/
theorem ink_join (ws : List (List Char)) : ink (join [' '] ws) = ink ws.flatten := by
  induction ws with
  | nil => rfl
  | cons w ws ih =>
    cases ws with
    | nil => rw [join, List.flatten_singleton]
    | cons v vs =>
      rw [List.flatten_cons, ink_append, ← ih]
      show ink (w ++ [' '] ++ join [' '] (v :: vs)) = _
      rw [ink_append, ink_append, show ink [' '] = [] from rfl, List.append_nil]

/-- Collapsing the blanks of a text leaves its ink alone. -/
theorem ink_collapse (cs : List Char) : ink (collapse cs) = ink cs := by
  rw [collapse, ink_join, flatten_words, ink, ink, List.filter_filter]
  simp only [Bool.and_self]

/-- **More text is lost in the blanks** exactly if it is blank. -/
theorem collapse_append_eq_iff (as bs : List Char) :
    collapse as = collapse (as ++ bs) ↔ ∀ c ∈ bs, isBlank c = true := by
  constructor
  · intro h
    have hink := congrArg ink h
    rw [ink_collapse, ink_collapse, ink_append] at hink
    exact (ink_eq_nil_iff bs).mp (List.self_eq_append_right.mp hink)
  · intro h
    cases bs with
    | nil => rw [List.append_nil]
    | cons c bs =>
      obtain ⟨hc, h⟩ := List.forall_mem_cons.mp h
      have hblank := words_append_of_blank h []
      rw [List.append_nil, words_nil] at hblank
      rw [collapse, collapse, words_append_cons hc, hblank, List.append_nil]

/-- **A slice is cut in two** at a boundary. -/
theorem slice_append_slice {cs : List Char} {start middle stop : Nat}
    (hstart : isBoundary start cs = true) (hmiddle : isBoundary middle cs = true)
    (hle : start ≤ middle) (hle' : middle ≤ stop) :
    slice cs start middle ++ slice cs middle stop = slice cs start stop := by
  obtain ⟨between, rest, hrest, hwidth⟩ :=
    (isBoundary_iff _ _).mp (isBoundary_sub hstart hmiddle hle)
  have hbehind : dropBytes middle cs = rest := by
    rw [← dropBytes_dropBytes hstart hle, hrest, ← hwidth, dropBytes_width]
  have hsum : stop - start = width between + (stop - middle) := by omega
  unfold slice
  rw [hbehind, hsum, hrest, ← hwidth, takeBytes_width, takeBytes_width_add]

end Chars

/-! ## Parts by kind and by role -/

namespace Node

variable {source : List Char} {n : Node}

/-- The parts of a kind, in order. -/
def partsOfKind (n : Node) (kind : String) : List Node := n.children.filter fun p => p.kind == kind

/-- The parts in a role, in order. -/
def partsInRole (n : Node) (role : String) : List Node :=
  n.children.filter fun p => p.fields.contains role

/-- **The text of a role**, from the start of the first part in it to the end
of the last, with its blanks collapsed. -/
def roleText? (source : List Char) (n : Node) (role : String) : Option String :=
  match n.partsInRole role with
  | [] => none
  | first :: rest =>
    some (Text.collapse (String.ofList
      (Chars.slice source first.range.start (rest.getLastD first).range.stop)))

/-- The first part in a role is the one that is looked up. -/
theorem head?_partsInRole (n : Node) (role : String) :
    (n.partsInRole role).head? = n.field? role := List.head?_filter ..

/-- The first part of a kind is the one that is looked up. -/
theorem head?_partsOfKind (n : Node) (kind : String) :
    (n.partsOfKind kind).head? = n.child? kind := List.head?_filter ..

/-- The parts of a tree over a source are placed over it. -/
theorem IsTreeOver.isProper_of_mem_children (h : n.IsTreeOver source) {p : Node}
    (hp : p ∈ n.children) : p.range.IsProper source :=
  (h ⟨p, [n]⟩ (mem_occurrences_of_part hp (self_mem_occurrences ..))).isProper

/-- The parts in a role are in order, one behind the other. -/
theorem IsTreeOver.pairwise_partsInRole (h : n.IsTreeOver source) (role : String) :
    (n.partsInRole role).Pairwise fun a b => a.range.stop ≤ b.range.start :=
  (h ⟨n, []⟩ (self_mem_occurrences ..)).inOrder.filter _

/-- **The first part has the text of its role** exactly if nothing but blanks
stands between its end and the end of the last part. -/
theorem collapse_first_eq_roleText_iff (h : n.IsTreeOver source) {role : String} {first : Node}
    {rest : List Node} (hparts : n.partsInRole role = first :: rest) :
    some (Text.collapse (first.text source)) = n.roleText? source role
      ↔ ∀ c ∈ Chars.slice source first.range.stop (rest.getLastD first).range.stop,
          isBlank c = true := by
  have hmem : ∀ p ∈ first :: rest, p ∈ n.children := fun p hp =>
    (List.mem_filter.mp (show p ∈ n.partsInRole role from hparts ▸ hp)).1
  have hfirst := h.isProper_of_mem_children (hmem first (List.mem_cons_self ..))
  have hle : first.range.stop ≤ (rest.getLastD first).range.stop := by
    cases rest with
    | nil => exact Nat.le_refl _
    | cons next rest =>
      have hlast : (next :: rest).getLastD first ∈ next :: rest := by
        rw [List.getLastD_cons]
        exact List.getLastD_mem_cons ..
      have horder := h.pairwise_partsInRole role
      rw [hparts, List.pairwise_cons] at horder
      exact Nat.le_trans (horder.1 _ hlast)
        (h.isProper_of_mem_children (hmem _ (List.mem_cons_of_mem _ hlast))).start_le_stop
  unfold roleText?
  rw [hparts, Option.some.injEq, ← String.toList_inj, Text.toList_collapse, Text.toList_collapse,
    Node.text, String.toList_ofList, String.toList_ofList,
    ← Chars.slice_append_slice hfirst.isBoundary_start hfirst.isBoundary_stop
      hfirst.start_le_stop hle]
  exact Chars.collapse_append_eq_iff ..

/-! ## Effects -/

/-- **The keyword of a function that suspends**: by its kind, or as a token
that reads so. -/
def IsAsyncKeyword (source : List Char) (p : Node) : Prop :=
  p.kind = "async" ∨ (p.named = false ∧ p.text source = "async")

instance (source : List Char) (p : Node) : Decidable (p.IsAsyncKeyword source) :=
  inferInstanceAs (Decidable (_ ∨ _))

/-- The clause of a function that throws. -/
def isThrowsClause (p : Node) : Bool := p.kind == "throws" || p.kind == "rethrows"

/-- The parts that are tokens are of the kind that they read. -/
def TokensReadAsKind (source : List Char) (n : Node) : Prop :=
  ∀ p ∈ n.children, p.named = false → p.kind = p.text source

instance (source : List Char) (n : Node) : Decidable (n.TokensReadAsKind source) :=
  inferInstanceAs (Decidable (∀ p ∈ n.children, p.named = false → p.kind = p.text source))

/-- A part of kind `async` is no clause of a function that throws. -/
theorem isThrowsClause_of_kind_async {p : Node} (h : p.kind = "async") :
    p.isThrowsClause = false := by
  rw [isThrowsClause, h]
  decide

/-- A part of another kind than `async` is a clause, a token that reads so, or
nothing to the effects. -/
theorem effectStep_of_kind_ne {p : Node} (h : p.kind ≠ "async") (e : Effects) :
    effectStep source e p
      = if p.isThrowsClause then { e with throwing := some (Text.collapse (p.text source)) }
        else if p.named = false ∧ p.text source = "async" then { e with isAsync := true }
        else e := by
  rw [effectStep, if_neg h, isThrowsClause]
  simp only [Bool.or_eq_true, decide_eq_true_eq, beq_iff_eq, Bool.and_eq_true, Bool.not_eq_true']

/-- **One part** is the keyword of a function that suspends, unless it is the
clause of one that throws. -/
theorem isAsync_effectStep_iff (e : Effects) (p : Node) :
    (effectStep source e p).isAsync = true
      ↔ e.isAsync = true ∨ (p.IsAsyncKeyword source ∧ p.isThrowsClause = false) := by
  by_cases hkind : p.kind = "async"
  · have hkeyword : p.IsAsyncKeyword source ∧ p.isThrowsClause = false :=
      ⟨Or.inl hkind, isThrowsClause_of_kind_async hkind⟩
    rw [effectStep, if_pos hkind]
    exact iff_of_true rfl (Or.inr hkeyword)
  · rw [effectStep_of_kind_ne hkind]
    cases hthrows : p.isThrowsClause with
    | true => simp
    | false =>
      by_cases htoken : p.named = false ∧ p.text source = "async"
      · simp [IsAsyncKeyword, htoken]
      · simp [IsAsyncKeyword, hkind, htoken]

/-- **One part** is the clause of a function that throws, or leaves that clause
alone. -/
theorem throwing_effectStep (e : Effects) (p : Node) :
    (effectStep source e p).throwing
      = if p.isThrowsClause then some (Text.collapse (p.text source)) else e.throwing := by
  by_cases hkind : p.kind = "async"
  · rw [effectStep, if_pos hkind, isThrowsClause_of_kind_async hkind, if_neg Bool.false_ne_true]
  · rw [effectStep_of_kind_ne hkind]
    split
    · rfl
    · split
      · rfl
      · rfl

/-- **A run over parts** finds the keyword among them, unless it has been found
before. -/
theorem isAsync_foldl_effectStep_iff (ps : List Node) (e : Effects) :
    (ps.foldl (effectStep source) e).isAsync = true
      ↔ e.isAsync = true ∨ ∃ p ∈ ps, p.IsAsyncKeyword source ∧ p.isThrowsClause = false := by
  induction ps generalizing e with
  | nil => simp
  | cons p ps ih =>
    rw [List.foldl_cons, ih, isAsync_effectStep_iff, List.exists_mem_cons_iff, or_assoc]

/-- **A run over parts** keeps the last clause of a function that throws. -/
theorem throwing_foldl_effectStep (ps : List Node) (e : Effects) :
    (ps.foldl (effectStep source) e).throwing
      = ((ps.filter isThrowsClause).getLast?.map fun p => Text.collapse (p.text source)).or
          e.throwing := by
  induction ps generalizing e with
  | nil => rfl
  | cons p ps ih =>
    rw [List.foldl_cons, ih, throwing_effectStep]
    cases hp : p.isThrowsClause with
    | false => rw [List.filter_cons_of_neg (by rw [hp]; decide), if_neg Bool.false_ne_true]
    | true =>
      rw [List.filter_cons_of_pos hp, if_pos rfl, List.getLast?_cons]
      cases (ps.filter isThrowsClause).getLast? <;> rfl

/-- A declaration suspends if one of its parts is the keyword. -/
theorem isAsync_effects_iff (source : List Char) (n : Node) :
    (n.effects source).isAsync = true
      ↔ ∃ p ∈ n.children, p.IsAsyncKeyword source ∧ p.isThrowsClause = false := by
  rw [effects, isAsync_foldl_effectStep_iff]
  exact or_iff_right Bool.false_ne_true

/-- A declaration throws as its last clause says. -/
theorem throwing_effects (source : List Char) (n : Node) :
    (n.effects source).throwing
      = (n.children.filter isThrowsClause).getLast?.map fun p => Text.collapse (p.text source) := by
  rw [effects, throwing_foldl_effectStep, Option.or_none]

/-- **A keyword is no clause** of a function that throws, where a token is of
the kind that it reads. -/
theorem TokensReadAsKind.isThrowsClause_eq_false (h : n.TokensReadAsKind source) {p : Node}
    (hp : p ∈ n.children) (hasync : p.IsAsyncKeyword source) : p.isThrowsClause = false := by
  rcases hasync with hkind | ⟨htoken, htext⟩
  · exact isThrowsClause_of_kind_async hkind
  · exact isThrowsClause_of_kind_async ((h p hp htoken).trans htext)

/-! ## Modifiers -/

/-- **The declaration has a modifier**: as a word of one of its modifiers, other
than attributes, or as the keyword `class` outside of them. -/
def HasModifier (source : List Char) (n : Node) (word : String) : Prop :=
  ∃ p ∈ n.children,
    (p.kind = "modifiers" ∧
      ∃ m ∈ p.children, m.kind ≠ "attribute" ∧ word ∈ Text.words (m.text source))
    ∨ (p.kind = "class" ∧ p.named = false ∧ word = "class")

instance (source : List Char) (n : Node) (word : String) : Decidable (n.HasModifier source word) :=
  inferInstanceAs (Decidable (∃ p ∈ n.children, _ ∨ _))

/-- The modifier words are those of the modifiers. -/
theorem mem_keywords_iff {word : String} :
    word ∈ n.keywords source ↔ n.HasModifier source word := by
  rw [keywords, List.mem_flatMap]
  refine exists_congr fun p => and_congr_right fun _ => ?_
  unfold keywordsOfPart
  by_cases hmodifiers : p.kind = "modifiers"
  · simp [hmodifiers, and_assoc]
  · simp [hmodifiers, and_assoc]

/-- Whether a member belongs to the type itself is told by two modifiers. -/
theorem isTypeMember_iff (source : List Char) (n : Node) :
    n.isTypeMember source = true
      ↔ n.HasModifier source "static" ∨ n.HasModifier source "class" := by
  rw [PropertyClause.isTypeMember_eq, Bool.or_eq_true, List.contains_iff_mem, List.contains_iff_mem,
    mem_keywords_iff, mem_keywords_iff]

end Node

/-! ## The signature -/

/-- **A method keeps the signature of its declaration**, as far as it does. The
result is kept as it is written if one part alone makes it up, or if there is
none; if more parts do, all behind the first are missing. -/
structure Method.KeepsSignature (source : List Char) (n : Node) (m : Method) : Prop where
  name_eq : some m.name = (n.partsInRole "name").head?.map fun p => Text.trim (p.text source)
  genericParams_eq :
    m.genericParams
      = (n.partsOfKind "type_parameters").head?.map fun p => Text.collapse (p.text source)
  whereClause_eq :
    m.whereClause
      = (n.partsOfKind "type_constraints").head?.map fun p => Text.collapse (p.text source)
  isAsync_iff :
    m.effects.isAsync = true
      ↔ ∃ p ∈ n.children, p.IsAsyncKeyword source ∧ p.isThrowsClause = false
  isAsync_iff_of_tokens :
    n.TokensReadAsKind source →
      (m.effects.isAsync = true ↔ ∃ p ∈ n.children, p.IsAsyncKeyword source)
  throwing_eq :
    m.effects.throwing
      = (n.children.filter Node.isThrowsClause).getLast?.map fun p => Text.collapse (p.text source)
  isStatic_iff :
    m.isStatic = true ↔ n.HasModifier source "static" ∨ n.HasModifier source "class"
  returnType_eq :
    m.returnType
      = (n.partsInRole "return_type").head?.map fun p => Text.collapse (p.text source)
  returnType_eq_roleText :
    (n.partsInRole "return_type").length ≤ 1 → m.returnType = n.roleText? source "return_type"
  returnType_eq_roleText_iff : n.IsTreeOver source →
    ∀ first rest, n.partsInRole "return_type" = first :: rest →
      (m.returnType = n.roleText? source "return_type"
        ↔ ∀ c ∈ Chars.slice source first.range.stop (rest.getLastD first).range.stop,
            isBlank c = true)

/-- **A method that is read** keeps the signature. -/
theorem Method.keepsSignature_of_ofNode? {source : List Char} {n : Node} {m : Method}
    (h : Method.ofNode? source n = some m) : m.KeepsSignature source n := by
  obtain ⟨name, hname, rfl⟩ := Option.map_eq_some_iff.mp h
  have hchild : ∀ kind, n.childText? source kind
      = (n.partsOfKind kind).head?.map fun p => Text.collapse (p.text source) := fun kind => by
    rw [Node.childText?, Node.head?_partsOfKind]
  have hresult : (n.field? "return_type").map (fun t => Text.collapse (t.text source))
      = (n.partsInRole "return_type").head?.map fun p => Text.collapse (p.text source) := by
    rw [Node.head?_partsInRole]
  exact
    { name_eq := by rw [Node.head?_partsInRole, hname, Option.map_some]
      genericParams_eq := hchild _
      whereClause_eq := hchild _
      isAsync_iff := Node.isAsync_effects_iff source n
      isAsync_iff_of_tokens := fun htokens => by
        rw [Node.isAsync_effects_iff]
        exact exists_congr fun p => and_congr_right fun hp =>
          and_iff_left_of_imp (htokens.isThrowsClause_eq_false hp)
      throwing_eq := Node.throwing_effects source n
      isStatic_iff := Node.isTypeMember_iff source n
      returnType_eq := hresult
      returnType_eq_roleText := fun hlength => by
        rw [hresult, Node.roleText?]
        match n.partsInRole "return_type", hlength with
        | [], _ => rfl
        | [_], _ => rfl
      returnType_eq_roleText_iff := fun htree first rest hparts => by
        rw [← Node.collapse_first_eq_roleText_iff htree hparts, hresult, hparts]
        rfl }

/-- **What is kept of the signature of a method**: every declaration of a
function that has a name is read as a method, and the method keeps the
signature, but for a result that is made up of several parts. -/
theorem method_keeps_signature (source : List Char) (n : Node)
    (hkind : n.kind = "function_declaration") (hname : n.partsInRole "name" ≠ []) :
    ∃ m, Declaration.ofNode source n = .method m ∧ m.KeepsSignature source n := by
  obtain ⟨name, names, hnames⟩ := List.exists_cons_of_ne_nil hname
  have hfield : n.field? "name" = some name := by
    rw [← Node.head?_partsInRole, hnames, List.head?_cons]
  cases hm : Method.ofNode? source n with
  | none =>
    rw [Method.ofNode?, hfield] at hm
    exact absurd hm (Option.some_ne_none _)
  | some m =>
    exact ⟨m, by simp only [Declaration.ofNode, hkind, hm], Method.keepsSignature_of_ofNode? hm⟩

/-- A method with all items of a signature. -/
def fullSource : String := "@V static func  f <T>() async throws -> [ T ] where T:  P \x7b\x7d"

/-- The tree of the method. -/
def fullTree : Node :=
  .mk "function_declaration" ⟨0, 60⟩ true []
    [.mk "modifiers" ⟨0, 9⟩ true []
      [.mk "attribute" ⟨0, 2⟩ true [] [], .mk "property_modifier" ⟨3, 9⟩ true [] []],
     .mk "func" ⟨10, 14⟩ false [] [],
     .mk "simple_identifier" ⟨16, 17⟩ true ["name"] [],
     .mk "type_parameters" ⟨18, 21⟩ true [] [],
     .mk "(" ⟨21, 22⟩ false [] [], .mk ")" ⟨22, 23⟩ false [] [],
     .mk "async" ⟨24, 29⟩ false [] [], .mk "throws" ⟨30, 36⟩ true [] [],
     .mk "->" ⟨37, 39⟩ false [] [],
     .mk "array_type" ⟨40, 45⟩ true ["return_type"] [],
     .mk "type_constraints" ⟨46, 57⟩ true [] [],
     .mk "function_body" ⟨58, 60⟩ true ["body"] []]

/-- All of them are kept. -/
theorem method_keeps_signature_fullTree :
    fullTree.kind = "function_declaration" ∧ fullTree.partsInRole "name" ≠ []
      ∧ ∃ m, Declaration.ofNode fullSource.toList fullTree = .method m
        ∧ m.name = "f" ∧ m.genericParams = some "<T>" ∧ m.whereClause = some "where T: P"
        ∧ m.effects.isAsync = true ∧ m.effects.throwing = some "throws" ∧ m.isStatic = true
        ∧ m.returnType = some "[ T ]" := by
  have hname : fullTree.partsInRole "name" ≠ [] := by decide +kernel
  obtain ⟨m, hm, hkeeps⟩ := method_keeps_signature fullSource.toList fullTree rfl hname
  have htokens : fullTree.TokensReadAsKind fullSource.toList := by decide +kernel
  refine ⟨rfl, hname, m, hm, ?_, ?_, ?_, ?_, ?_, ?_, ?_⟩
  · exact Option.some.inj (hkeeps.name_eq.trans (by decide +kernel))
  · rw [hkeeps.genericParams_eq]
    decide +kernel
  · rw [hkeeps.whereClause_eq]
    decide +kernel
  · rw [hkeeps.isAsync_iff_of_tokens htokens]
    decide +kernel
  · rw [hkeeps.throwing_eq]
    decide +kernel
  · rw [hkeeps.isStatic_iff]
    decide +kernel
  · rw [hkeeps.returnType_eq_roleText (by decide +kernel)]
    decide +kernel

/-- A method with a result that is unwrapped implicitly. -/
def unwrappedSource : String := "@V func f() -> Int! \x7b\x7d"

/-- The tree of the method: the mark of the result is a part of its own. -/
def unwrappedTree : Node :=
  .mk "function_declaration" ⟨0, 22⟩ true []
    [.mk "modifiers" ⟨0, 2⟩ true [] [.mk "attribute" ⟨0, 2⟩ true [] []],
     .mk "func" ⟨3, 7⟩ false [] [],
     .mk "simple_identifier" ⟨8, 9⟩ true ["name"] [],
     .mk "(" ⟨9, 10⟩ false [] [], .mk ")" ⟨10, 11⟩ false [] [],
     .mk "->" ⟨12, 14⟩ false [] [],
     .mk "user_type" ⟨15, 18⟩ true ["return_type"] [],
     .mk "!" ⟨18, 19⟩ false ["return_type"] [],
     .mk "function_body" ⟨20, 22⟩ true ["body"] []]

/-- **The mark of a result is lost**, although it is a part of the result. -/
theorem mark_of_result_is_lost :
    unwrappedTree.kind = "function_declaration"
      ∧ unwrappedTree.IsTreeOver unwrappedSource.toList
      ∧ unwrappedTree.roleText? unwrappedSource.toList "return_type" = some "Int!"
      ∧ ∃ m, Declaration.ofNode unwrappedSource.toList unwrappedTree = .method m
        ∧ m.returnType = some "Int" :=
  ⟨rfl, by decide +kernel, by decide +kernel, _, rfl, by decide +kernel⟩

end TestAccess
