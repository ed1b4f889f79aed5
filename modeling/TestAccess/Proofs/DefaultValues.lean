import TestAccess.Proofs.Forwarding

/-!
# Which default value a parameter gets

The parts of a declaration are a flat list: a parameter, an equals sign and a
default value are neighbours, and nothing holds them together. They are read
in one pass. An equals sign makes the reading wait for a default value, and
what ends the wait is the next parameter, or the next part that is a
construct and not only a token. A token is passed over, and nothing else about
the list of parameters ends the wait – not a comma, and not the parenthesis
that closes the list.

So a default value that is a construct goes to its own parameter. One that is
only a token, as the name of an operator is, is passed over like a comma, and
the reading goes on waiting: its parameter gets the attribute in front of the
next parameter instead, or, where it is the last one, the first construct
behind the list, be it the type of the result or the body
(`parameters_of_clause`).
-/

namespace TestAccess

/-! ## Lists of parameters -/

namespace Node

/-- **A part that is neither a parameter nor an equals sign.** -/
def IsNeutral (n : Node) : Prop := n.kind ≠ "parameter" ∧ n.kind ≠ "="

/-- A token that reads as given, and is no construct. -/
def IsToken (text : String) (n : Node) : Prop := n.kind = text ∧ n.named = false

theorem IsToken.isNeutral {text : String} {n : Node} (h : n.IsToken text)
    (hparameter : text ≠ "parameter") (hsign : text ≠ "=") : n.IsNeutral := by
  unfold IsNeutral
  rw [h.1]
  exact ⟨hparameter, hsign⟩

end Node

variable {source : List Char}

/-- **A parameter among the parts of a declaration**, with the attribute in
front of it and the default value behind it. -/
structure ParameterGroup (source : List Char) where
  /-- The attribute in front of it. -/
  attached : Option Node
  parameter : Node
  /-- What the parameter reads as. -/
  signature : Parameter
  /-- The equals sign and the default value. -/
  value : Option (Node × Node)
  kind_attached : ∀ a ∈ attached, a.kind = "attribute"
  kind_parameter : parameter.kind = "parameter"
  reads : Parameter.ofText? (parameter.text source) = some signature
  isNeutral_value : ∀ s ∈ value, s.1.kind = "=" ∧ s.2.IsNeutral

namespace ParameterGroup

/-- The equals sign and the default value as parts. -/
def valueParts (g : ParameterGroup source) : List Node :=
  match g.value with
  | none => []
  | some (sign, value) => [sign, value]

/-- The parts of a group. -/
def parts (g : ParameterGroup source) : List Node :=
  g.attached.toList ++ g.parameter :: g.valueParts

/-- **The parameter as it is declared**, with the default value of its own
group. -/
def declared (g : ParameterGroup source) : Parameter :=
  { g.signature with defaultValue := g.value.map fun s => Text.trim (s.2.text source) }

/-- **The part that becomes the default value**, given the parts between the
group and the next parameter: the group's own value if it is a construct, and
else the next construct behind it. -/
def taken? (g : ParameterGroup source) (behind : List Node) : Option Node :=
  g.value.bind fun s => if s.2.named then some s.2 else behind.find? Node.named

/-- The parameter with the default value that it gets. -/
def reading (g : ParameterGroup source) (behind : List Node) : Parameter :=
  { g.signature with defaultValue := (g.taken? behind).map fun v => Text.trim (v.text source) }

/-- A default value that is a construct is the one that its parameter gets. -/
theorem reading_eq_declared {g : ParameterGroup source} (h : ∀ s ∈ g.value, s.2.named = true)
    (behind : List Node) : g.reading behind = g.declared := by
  unfold reading declared taken?
  cases hvalue : g.value with
  | none => rfl
  | some s => rw [Option.bind_some, if_pos (h s hvalue), Option.map_some, Option.map_some]

/-- Tokens behind a group are passed over. -/
theorem reading_cons_token {text : String} {n : Node} (h : n.IsToken text)
    (g : ParameterGroup source) (behind : List Node) :
    g.reading (n :: behind) = g.reading behind := by
  unfold reading taken?
  rw [List.find?_cons_of_neg (by rw [h.2]; exact Bool.false_ne_true)]

/-- **The parts of groups**, with commas in between. -/
inductive Listed : List (ParameterGroup source) → List Node → Prop
  | none : Listed [] []
  | one (g : ParameterGroup source) : Listed [g] g.parts
  | more (g : ParameterGroup source) {comma : Node} (hcomma : comma.IsToken ",")
      {next : ParameterGroup source} {groups : List (ParameterGroup source)} {parts : List Node}
      (h : Listed (next :: groups) parts) :
      Listed (g :: next :: groups) (g.parts ++ comma :: parts)

/-- The parameters of groups with the default values that they get, given the
parts behind the last one. Between a group and the next parameter there is the
attribute of the next group. -/
def readings (back : List Node) : List (ParameterGroup source) → List Parameter
  | [] => []
  | [g] => [g.reading back]
  | g :: next :: groups => g.reading next.attached.toList :: readings back (next :: groups)

end ParameterGroup

/-- **The parts of a declaration with a list of parameters**: parts in front
of the list, the list in its parentheses, and parts behind it. -/
structure ParameterClause (source : List Char) where
  front : List Node
  opening : Node
  groups : List (ParameterGroup source)
  /-- The parts between the parentheses. -/
  inner : List Node
  closing : Node
  back : List Node
  isNeutral_front : ∀ p ∈ front, p.IsNeutral
  isToken_opening : opening.IsToken "("
  listed : ParameterGroup.Listed groups inner
  isToken_closing : closing.IsToken ")"
  isNeutral_back : ∀ p ∈ back, p.IsNeutral

/-- All parts, in order. -/
def ParameterClause.parts (c : ParameterClause source) : List Node :=
  c.front ++ c.opening :: (c.inner ++ c.closing :: c.back)

/-! ## The pass over the parts -/

namespace ParameterReading

/-- What a reading becomes behind neutral parts: one that waits for a default
value takes the first construct among them. -/
def settle (source : List Char) (r : ParameterReading) (parts : List Node) : ParameterReading :=
  if r.expectsDefault then
    match parts.find? Node.named with
    | some part => r.setDefault (Text.trim (part.text source))
    | none => r
  else r

/-- Behind its default value a reading does not wait. -/
theorem expectsDefault_setDefault (r : ParameterReading) (value : String) :
    (r.setDefault value).expectsDefault = false := by
  unfold setDefault
  split
  · rfl
  · rfl

theorem settle_nil (r : ParameterReading) : r.settle source [] = r := by
  unfold settle
  split
  · rfl
  · rfl

/-- A reading that does not wait stays as it is. -/
theorem settle_of_not_expectsDefault {r : ParameterReading} (h : r.expectsDefault = false)
    (parts : List Node) : r.settle source parts = r := by
  unfold settle
  rw [if_neg (by rw [h]; exact Bool.false_ne_true)]

/-- **A neutral part** is a default value if one is expected and the part is a
construct, and is passed over otherwise. -/
theorem step_of_isNeutral {part : Node} (h : part.IsNeutral) (r : ParameterReading) :
    step source r part
      = if r.expectsDefault && part.named then r.setDefault (Text.trim (part.text source))
        else r := by
  unfold step
  rw [if_neg h.1, if_neg h.2]

/-- **Neutral parts**, one after another. -/
theorem foldl_step_of_isNeutral {parts : List Node} (h : ∀ p ∈ parts, p.IsNeutral)
    (r : ParameterReading) : parts.foldl (step source) r = r.settle source parts := by
  induction parts generalizing r with
  | nil => rw [List.foldl_nil, settle_nil]
  | cons part parts ih =>
    rw [List.foldl_cons, ih (fun p hp => h p (List.mem_cons_of_mem _ hp)),
      step_of_isNeutral (h part (List.mem_cons_self ..))]
    cases hwaits : r.expectsDefault with
    | false =>
      rw [Bool.false_and, if_neg Bool.false_ne_true, settle_of_not_expectsDefault hwaits,
        settle_of_not_expectsDefault hwaits]
    | true =>
      cases hnamed : part.named with
      | false =>
        rw [Bool.and_false, if_neg Bool.false_ne_true, settle, settle,
          List.find?_cons_of_neg (by rw [hnamed]; exact Bool.false_ne_true)]
      | true =>
        rw [Bool.and_true, if_pos rfl,
          settle_of_not_expectsDefault (expectsDefault_setDefault r _), settle, if_pos hwaits,
          List.find?_cons_of_pos hnamed]

/-- **A token** is passed over. -/
theorem step_of_isToken {text : String} {part : Node} (h : part.IsToken text)
    (hparameter : text ≠ "parameter") (hsign : text ≠ "=") (r : ParameterReading) :
    step source r part = r := by
  rw [step_of_isNeutral (h.isNeutral hparameter hsign), h.2, Bool.and_false,
    if_neg Bool.false_ne_true]

end ParameterReading

/-- A parameter is read without a default value. -/
theorem Parameter.defaultValue_of_ofText? {text : String} {p : Parameter}
    (h : Parameter.ofText? text = some p) : p.defaultValue = none := by
  unfold Parameter.ofText? at h
  split at h
  · exact absurd h (by simp)
  · split at h
    · exact absurd h (by simp)
    · exact absurd h (by simp)
    · rw [← Option.some.inj h]

namespace ParameterGroup

/-- The attribute of a group is neutral. -/
theorem isNeutral_of_mem_attached (g : ParameterGroup source) :
    ∀ p ∈ g.attached.toList, p.IsNeutral := by
  intro p hp
  unfold Node.IsNeutral
  rw [g.kind_attached p (Option.mem_toList.mp hp)]
  exact ⟨by decide, by decide⟩

/-- The reading behind a group, its attribute aside. -/
def readFrom (g : ParameterGroup source) (r : ParameterReading) : ParameterReading :=
  (g.parameter :: g.valueParts).foldl (ParameterReading.step source) r

/-- **One group.** Behind the neutral parts that follow it, its parameter has
been added with the default value that it gets; what the reading waited for
before does not matter. -/
theorem settle_readFrom (g : ParameterGroup source) (r : ParameterReading) (behind : List Node) :
    ((g.readFrom r).settle source behind).parameters = g.reading behind :: r.parameters := by
  have hparameter : ParameterReading.step source r g.parameter
      = { parameters := g.signature :: r.parameters, expectsDefault := false } := by
    unfold ParameterReading.step
    rw [if_pos g.kind_parameter, g.reads]
    rfl
  have hplain : g.signature = { g.signature with defaultValue := none } := by
    rw [← Parameter.defaultValue_of_ofText? g.reads]
  unfold readFrom valueParts reading taken?
  rw [List.foldl_cons, hparameter]
  cases hvalue : g.value with
  | none =>
    rw [List.foldl_nil, ParameterReading.settle_of_not_expectsDefault rfl]
    exact congrArg (· :: r.parameters) hplain
  | some s =>
    obtain ⟨sign, value⟩ := s
    obtain ⟨hsign, hneutral⟩ := g.isNeutral_value _ hvalue
    have hwaits : ParameterReading.step source
          { parameters := g.signature :: r.parameters, expectsDefault := false } sign
        = { parameters := g.signature :: r.parameters, expectsDefault := true } := by
      unfold ParameterReading.step
      rw [if_neg (by rw [hsign]; decide), if_pos hsign]
    show ((([sign, value].foldl (ParameterReading.step source) _).settle source behind).parameters)
      = _
    rw [List.foldl_cons, hwaits, List.foldl_cons, List.foldl_nil,
      ParameterReading.step_of_isNeutral hneutral, Bool.true_and, Option.bind_some]
    cases hnamed : value.named with
    | true =>
      rw [if_pos rfl, if_pos rfl,
        ParameterReading.settle_of_not_expectsDefault
          (ParameterReading.expectsDefault_setDefault _ _)]
      rfl
    | false =>
      -- the value is a token, and the wait goes on behind it
      rw [if_neg Bool.false_ne_true, if_neg Bool.false_ne_true, ParameterReading.settle,
        if_pos rfl]
      cases hfind : behind.find? Node.named with
      | none => exact congrArg (· :: r.parameters) hplain
      | some part => rfl

/-- The reading behind all parts of a group. -/
theorem foldl_step_parts (g : ParameterGroup source) (r : ParameterReading) :
    g.parts.foldl (ParameterReading.step source) r
      = g.readFrom (r.settle source g.attached.toList) := by
  rw [parts, List.foldl_append,
    ParameterReading.foldl_step_of_isNeutral g.isNeutral_of_mem_attached, readFrom]

/-- **All groups of a list.** The parameters are added in order, each with the
default value that it gets; the attribute of the first one may still be what
the reading was waiting for. -/
theorem parameters_foldl_step_of_listed {groups : List (ParameterGroup source)}
    {inner : List Node} (h : Listed groups inner) {back : List Node}
    (hback : ∀ p ∈ back, p.IsNeutral) (r : ParameterReading)
    (hr : groups = [] → r.expectsDefault = false) :
    ((inner ++ back).foldl (ParameterReading.step source) r).parameters
      = (readings back groups).reverse
        ++ (r.settle source (groups.head?.bind attached).toList).parameters := by
  induction h generalizing r with
  | none =>
    rw [List.nil_append, ParameterReading.foldl_step_of_isNeutral hback,
      ParameterReading.settle_of_not_expectsDefault (hr rfl),
      ParameterReading.settle_of_not_expectsDefault (hr rfl)]
    rfl
  | one g =>
    rw [List.foldl_append, foldl_step_parts, ParameterReading.foldl_step_of_isNeutral hback,
      settle_readFrom]
    rfl
  | @more g comma hcomma next groups parts h ih =>
    rw [List.append_assoc, List.foldl_append, foldl_step_parts, List.cons_append,
      List.foldl_cons, ParameterReading.step_of_isToken hcomma (by decide) (by decide),
      ih _ (fun h => absurd h (List.cons_ne_nil _ _))]
    show _ ++ ((g.readFrom _).settle source next.attached.toList).parameters = _
    rw [settle_readFrom, readings, List.reverse_cons, List.append_assoc, List.singleton_append]
    rfl

end ParameterGroup

/-! ## The parameters of a declaration -/

namespace ParameterClause

/-- **The parameters of a clause** with the default values that they get. -/
theorem parameters_eq_readings (c : ParameterClause source) {n : Node}
    (h : n.children = c.parts) :
    n.parameters source = ParameterGroup.readings c.back c.groups := by
  have hreadings : ParameterGroup.readings (c.closing :: c.back) c.groups
      = ParameterGroup.readings c.back c.groups := by
    generalize c.groups = groups
    induction groups with
    | nil => rfl
    | cons g groups ih =>
      cases groups with
      | nil => exact congrArg (fun p => [p]) (g.reading_cons_token c.isToken_closing c.back)
      | cons next groups => exact congrArg (_ :: ·) ih
  have hbehind : ∀ p ∈ c.closing :: c.back, p.IsNeutral :=
    List.forall_mem_cons.mpr
      ⟨c.isToken_closing.isNeutral (by decide) (by decide), c.isNeutral_back⟩
  unfold Node.parameters
  rw [h, parts, List.foldl_append, ParameterReading.foldl_step_of_isNeutral c.isNeutral_front,
    ParameterReading.settle_of_not_expectsDefault rfl, List.foldl_cons,
    ParameterReading.step_of_isToken c.isToken_opening (by decide) (by decide),
    ParameterGroup.parameters_foldl_step_of_listed c.listed hbehind _ (fun _ => rfl),
    ParameterReading.settle_of_not_expectsDefault rfl, List.append_nil, List.reverse_reverse,
    hreadings]

/-- The constructs among the default values are the ones that their parameters
get, whatever the others are. -/
theorem forall₂_readings (back : List Node) (groups : List (ParameterGroup source)) :
    List.Forall₂ (fun g p => (∀ s ∈ g.value, s.2.named = true) → p = g.declared) groups
      (ParameterGroup.readings back groups) := by
  induction groups with
  | nil => exact List.Forall₂.nil
  | cons g groups ih =>
    cases groups with
    | nil =>
      exact List.Forall₂.cons (fun h => ParameterGroup.reading_eq_declared h back)
        List.Forall₂.nil
    | cons next groups =>
      exact List.Forall₂.cons (fun h => ParameterGroup.reading_eq_declared h _) ih

end ParameterClause

/-- What a declaration is called with is read from the parts of its node. -/
theorem Declaration.parameters_of_callable? {source : List Char} {n : Node} {d : Callable}
    (h : (Declaration.ofNode source n).callable? = some d) :
    d.parameters = n.parameters source := by
  unfold Declaration.ofNode at h
  split at h
  · exact absurd h (by simp [callable?])
  · split at h
    · rename_i m hm
      obtain ⟨name, -, rfl⟩ := Option.map_eq_some_iff.mp hm
      rw [← Option.some.inj h]
    · exact absurd h (by simp [callable?])
  · rw [← Option.some.inj h]
    rfl
  · exact absurd h (by simp [callable?])

/-- **A default value goes to its own parameter if it is a construct.** Let the
parts of a node hold a list of parameters. There is one parameter for each
group of the list, in order, and these are the parameters that a method or an
initializer read from the node is called with. A parameter without a default
value, and one whose default value is a construct, is read as it is declared.
A default value that is a token is passed over, and its parameter gets the
next construct in front of the next parameter, or behind the list. -/
theorem parameters_of_clause (source : List Char) (n : Node) (c : ParameterClause source)
    (h : n.children = c.parts) :
    n.parameters source = ParameterGroup.readings c.back c.groups
      ∧ List.Forall₂ (fun g p => (∀ s ∈ g.value, s.2.named = true) → p = g.declared)
          c.groups (n.parameters source)
      ∧ ∀ d ∈ (Declaration.ofNode source n).callable?, d.parameters = n.parameters source := by
  have hreadings := c.parameters_eq_readings h
  refine ⟨hreadings, ?_, fun d hd => Declaration.parameters_of_callable? hd⟩
  rw [hreadings]
  exact ParameterClause.forall₂_readings c.back c.groups

/-- A method with three default values. The first one is a construct, the
others are tokens. -/
def tokenSource : String :=
  "@V func f(a: Int = 1, b: Int? = nil, by: (Int, Int) -> Bool = <) -> Int \x7b\x7d"

/-- The groups of the list of parameters. -/
def tokenGroups : List (ParameterGroup tokenSource.toList) :=
  [{ attached := none, parameter := .mk "parameter" ⟨10, 16⟩ true [] []
     signature := { label := .named "a", type := "Int" }
     value := some (.mk "=" ⟨17, 18⟩ false [] [], .mk "integer_literal" ⟨19, 20⟩ true [] [])
     kind_attached := by simp
     kind_parameter := rfl
     reads := by decide +kernel
     isNeutral_value := by simp [Node.IsNeutral, Node.kind] },
    { attached := none, parameter := .mk "parameter" ⟨22, 29⟩ true [] []
      signature := { label := .named "b", type := "Int?" }
      value := some (.mk "=" ⟨30, 31⟩ false [] [], .mk "nil" ⟨32, 35⟩ false [] [])
      kind_attached := by simp
      kind_parameter := rfl
      reads := by decide +kernel
      isNeutral_value := by simp [Node.IsNeutral, Node.kind] },
    { attached := none, parameter := .mk "parameter" ⟨37, 59⟩ true [] []
      signature := { label := .named "by", type := "(Int, Int) -> Bool" }
      value := some (.mk "=" ⟨60, 61⟩ false [] [], .mk "<" ⟨62, 63⟩ false [] [])
      kind_attached := by simp
      kind_parameter := rfl
      reads := by decide +kernel
      isNeutral_value := by simp [Node.IsNeutral, Node.kind] }]

/-- The parts of the method. -/
def tokenClause : ParameterClause tokenSource.toList where
  front :=
    [.mk "modifiers" ⟨0, 2⟩ true [] [.mk "attribute" ⟨0, 2⟩ true [] []],
      .mk "func" ⟨3, 7⟩ false [] [], .mk "simple_identifier" ⟨8, 9⟩ true ["name"] []]
  opening := .mk "(" ⟨9, 10⟩ false [] []
  groups := tokenGroups
  inner :=
    [.mk "parameter" ⟨10, 16⟩ true [] [], .mk "=" ⟨17, 18⟩ false [] [],
      .mk "integer_literal" ⟨19, 20⟩ true [] [], .mk "," ⟨20, 21⟩ false [] [],
      .mk "parameter" ⟨22, 29⟩ true [] [], .mk "=" ⟨30, 31⟩ false [] [],
      .mk "nil" ⟨32, 35⟩ false [] [], .mk "," ⟨35, 36⟩ false [] [],
      .mk "parameter" ⟨37, 59⟩ true [] [], .mk "=" ⟨60, 61⟩ false [] [],
      .mk "<" ⟨62, 63⟩ false [] []]
  closing := .mk ")" ⟨63, 64⟩ false [] []
  back :=
    [.mk "->" ⟨65, 67⟩ false [] [], .mk "user_type" ⟨68, 71⟩ true ["return_type"] [],
      .mk "function_body" ⟨72, 74⟩ true ["body"] []]
  isNeutral_front := by simp [Node.IsNeutral, Node.kind]
  isToken_opening := ⟨rfl, rfl⟩
  listed := .more _ ⟨rfl, rfl⟩ (.more _ ⟨rfl, rfl⟩ (.one _))
  isToken_closing := ⟨rfl, rfl⟩
  isNeutral_back := by simp [Node.IsNeutral, Node.kind]

/-- The tree of the method. -/
def tokenTree : Node := .mk "function_declaration" ⟨0, 74⟩ true [] tokenClause.parts

/-- Of the default values of the method, the first one goes to its parameter,
the second one is lost, and the third parameter gets the type of the result. -/
theorem parameters_of_clause_tokenTree :
    tokenTree.children = tokenClause.parts
      ∧ (tokenTree.parameters tokenSource.toList).map Parameter.defaultValue
        = [some "1", none, some "Int"] := by
  obtain ⟨hreadings, -, -⟩ := parameters_of_clause tokenSource.toList tokenTree tokenClause rfl
  refine ⟨rfl, ?_⟩
  rw [hreadings]
  decide +kernel

/-- **Not every default value goes to its own parameter**: those of the method
that are tokens do not. -/
theorem parameters_tokenTree_ne_declared :
    tokenTree.kind = "function_declaration" ∧ tokenTree.children = tokenClause.parts
      ∧ tokenTree.parameters tokenSource.toList ≠ tokenClause.groups.map ParameterGroup.declared
      ∧ tokenClause.groups.map (fun g => g.declared.defaultValue)
        = [some "1", some "nil", some "<"] :=
  ⟨rfl, rfl, by decide +kernel, by decide +kernel⟩

end TestAccess
