import TestAccess.Proofs.LayoutWords

/-!
# Renderings are properly nested in brackets

The text of an accessor is put together from pieces that come from the source
and from brackets that a rendering adds: the parentheses of a signature and of
a call, and the braces of a block. Some of the pieces are there only for some
accessors, and each layout writes its blocks in its own way.

That all brackets match in the end is a matter of the grammar of nested texts
(`Chars.Nested`): such texts may be put one behind the other
(`Nested.append`) and in a pair of brackets (`Nested.enclosed`), and a
rendering does nothing else with them. Where a piece is not nested itself,
nothing is said.

The grammar can be decided. A text is read from left to right with the closing
brackets that are still awaited, and it is nested exactly if it can be read to
its end and none is awaited there (`nested_iff`).
-/

namespace TestAccess

/-! ## Nested texts -/

namespace Chars

/-- The bracket that closes an opening one. -/
def closing? : Char → Option Char
  | '(' => some ')'
  | '[' => some ']'
  | '\x7b' => some '\x7d'
  | _ => none

/-- A closing bracket. -/
def isClosing (c : Char) : Bool := c = ')' || c = ']' || c = '\x7d'

/-- **A text is properly nested**: each bracket in it is closed by one of its
kind, around a text that is nested itself. -/
inductive Nested : List Char → Prop
  | nil : Nested []
  | plain {c : Char} {rest : List Char} (hopen : closing? c = none)
      (hclose : isClosing c = false) (h : Nested rest) : Nested (c :: rest)
  | bracketed {o c : Char} {inner rest : List Char} (hclose : closing? o = some c)
      (hinner : Nested inner) (h : Nested rest) : Nested (o :: (inner ++ c :: rest))

/-- **Nested texts may be put one behind the other.** -/
theorem Nested.append {as bs : List Char} (ha : Nested as) (hb : Nested bs) :
    Nested (as ++ bs) := by
  induction ha with
  | nil => exact hb
  | plain hopen hclose _ ih => exact ih.plain hopen hclose
  | bracketed hclose hinner _ _ ih =>
    rw [List.cons_append, List.append_assoc, List.cons_append]
    exact .bracketed hclose hinner ih

/-- **A nested text may be put in brackets.** -/
theorem Nested.enclosed {o c : Char} (hclose : closing? o = some c) {inner : List Char}
    (h : Nested inner) : Nested (o :: (inner ++ [c])) := .bracketed hclose h .nil

/-- A text without brackets is nested. -/
theorem nested_of_forall {cs : List Char}
    (h : ∀ c ∈ cs, closing? c = none ∧ isClosing c = false) : Nested cs := by
  induction cs with
  | nil => exact .nil
  | cons c cs ih =>
    obtain ⟨⟨hopen, hclose⟩, h⟩ := List.forall_mem_cons.mp h
    exact (ih h).plain hopen hclose

/-! ## Reading with the brackets that are awaited -/

/-- **Reads one character**, given the closing brackets that are awaited, the
next one first: those awaited behind it, unless it closes what it should
not. -/
def awaitedAfter (awaited : List Char) (c : Char) : Option (List Char) :=
  match closing? c with
  | some close => some (close :: awaited)
  | none =>
    if isClosing c then
      match awaited with
      | [] => none
      | next :: awaited => if next = c then some awaited else none
    else some awaited

/-- **Reads a text**: the closing brackets that are awaited behind it. -/
def awaitedBehind : List Char → List Char → Option (List Char)
  | awaited, [] => some awaited
  | awaited, c :: cs => (awaitedAfter awaited c).bind fun awaited => awaitedBehind awaited cs

/-- A bracket that closes another is a closing bracket, and opens nothing. -/
theorem isClosing_of_closing? {o c : Char} (h : closing? o = some c) :
    isClosing c = true ∧ closing? c = none := by
  unfold closing? at h
  split at h
  · exact Option.some.inj h ▸ ⟨rfl, rfl⟩
  · exact Option.some.inj h ▸ ⟨rfl, rfl⟩
  · exact Option.some.inj h ▸ ⟨rfl, rfl⟩
  · exact absurd h (by simp)

/-- **What one character can do**: it opens a bracket, or closes the one that
is awaited next, or is none. -/
theorem awaitedAfter_eq_some_iff (awaited awaited' : List Char) (c : Char) :
    awaitedAfter awaited c = some awaited' ↔
      (∃ close, closing? c = some close ∧ awaited' = close :: awaited)
        ∨ (closing? c = none ∧ isClosing c = true ∧ awaited = c :: awaited')
        ∨ (closing? c = none ∧ isClosing c = false ∧ awaited' = awaited) := by
  unfold awaitedAfter
  cases hopen : closing? c with
  | some close =>
    simp only [Option.some.injEq, reduceCtorEq, false_and, or_false, exists_eq_left']
    exact eq_comm
  | none =>
    cases hclose : isClosing c with
    | false =>
      simp only [reduceCtorEq, Bool.false_eq_true, if_false, Option.some.injEq, false_and,
        and_false, exists_false, true_and, false_or]
      exact eq_comm
    | true =>
      cases awaited with
      | nil => simp
      | cons next awaited => simp

variable {awaited : List Char}

/-- **A nested text changes nothing** about what is awaited. -/
theorem Nested.awaitedBehind_append {as : List Char} (h : Nested as) (awaited bs : List Char) :
    awaitedBehind awaited (as ++ bs) = awaitedBehind awaited bs := by
  induction h generalizing awaited bs with
  | nil => rfl
  | plain hopen hclose _ ih =>
    have hstep := (awaitedAfter_eq_some_iff awaited _ _).mpr (.inr (.inr ⟨hopen, hclose, rfl⟩))
    rw [List.cons_append, awaitedBehind, hstep, Option.bind_some, ih]
  | @bracketed o c inner rest hclose _ _ ihinner ih =>
    obtain ⟨hclosing, hopen⟩ := isClosing_of_closing? hclose
    have hfirst := (awaitedAfter_eq_some_iff awaited _ _).mpr (.inl ⟨c, hclose, rfl⟩)
    have hlast := (awaitedAfter_eq_some_iff (c :: awaited) _ _).mpr
      (.inr (.inl ⟨hopen, hclosing, rfl⟩))
    rw [List.cons_append, List.append_assoc, List.cons_append, awaitedBehind, hfirst,
      Option.bind_some, ihinner, awaitedBehind, hlast, Option.bind_some, ih]

/-- **A text closes the brackets that are awaited**: nested texts in between
and behind them, and the brackets in order. -/
def Closes : List Char → List Char → Prop
  | [], cs => Nested cs
  | c :: awaited, cs => ∃ inner rest, cs = inner ++ c :: rest ∧ Nested inner ∧ Closes awaited rest

/-- A nested text in front changes nothing. -/
theorem Nested.closes_append {as cs : List Char} (h : Nested as) (hcs : Closes awaited cs) :
    Closes awaited (as ++ cs) := by
  cases awaited with
  | nil => exact h.append hcs
  | cons c awaited =>
    obtain ⟨inner, rest, rfl, hinner, hrest⟩ := hcs
    exact ⟨as ++ inner, rest, by rw [List.append_assoc], h.append hinner, hrest⟩

/-- **What is read to its end** closes all that is awaited. -/
theorem closes_of_awaitedBehind {cs : List Char} (h : awaitedBehind awaited cs = some []) :
    Closes awaited cs := by
  induction cs generalizing awaited with
  | nil =>
    rw [awaitedBehind, Option.some.injEq] at h
    rw [h]
    exact Nested.nil
  | cons c cs ih =>
    obtain ⟨awaited', hstep, hrest⟩ := Option.bind_eq_some_iff.mp h
    have hcloses := ih hrest
    rcases (awaitedAfter_eq_some_iff ..).mp hstep with
      ⟨close, hopen, rfl⟩ | ⟨-, -, rfl⟩ | ⟨hopen, hclose, rfl⟩
    · obtain ⟨inner, rest, rfl, hinner, hrest⟩ := hcloses
      have happend : c :: (inner ++ close :: rest) = (c :: (inner ++ [close])) ++ rest := by simp
      rw [happend]
      exact (hinner.enclosed hopen).closes_append hrest
    · exact ⟨[], cs, rfl, Nested.nil, hcloses⟩
    · exact (Nested.nil.plain hopen hclose).closes_append hcloses

/-- **A text is nested exactly if it reads to its end** with nothing awaited. -/
theorem nested_iff (cs : List Char) : Nested cs ↔ awaitedBehind [] cs = some [] := by
  constructor
  · intro h
    have hread := h.awaitedBehind_append [] []
    rwa [List.append_nil] at hread
  · exact closes_of_awaitedBehind

instance (cs : List Char) : Decidable (Nested cs) := decidable_of_iff' _ (nested_iff cs)

/-- Nested texts may be joined by one. -/
theorem nested_join {sep : List Char} (hsep : Nested sep) {ws : List (List Char)}
    (h : ∀ w ∈ ws, Nested w) : Nested (join sep ws) := by
  induction ws with
  | nil => exact .nil
  | cons w ws ih =>
    obtain ⟨hw, h⟩ := List.forall_mem_cons.mp h
    cases ws with
    | nil => exact hw
    | cons v vs => exact (hw.append hsep).append (ih h)

/-- Nested texts may follow each other. -/
theorem nested_flatMap {α : Type} {l : List α} {f : α → List Char} (h : ∀ a ∈ l, Nested (f a)) :
    Nested (l.flatMap f) := by
  induction l with
  | nil => exact .nil
  | cons a l ih =>
    obtain ⟨ha, h⟩ := List.forall_mem_cons.mp h
    exact ha.append (ih h)

end Chars

namespace Text

/-- **A text is properly nested** in parentheses, brackets and braces. -/
def IsNested (s : String) : Prop := Chars.Nested s.toList

instance (s : String) : Decidable (IsNested s) := inferInstanceAs (Decidable (Chars.Nested _))

theorem IsNested.append {s t : String} (hs : IsNested s) (ht : IsNested t) :
    IsNested (s ++ t) := by
  rw [IsNested, String.toList_append]
  exact Chars.Nested.append hs ht

/-- A nested text in parentheses, with a nested text in front. -/
theorem IsNested.parenthesized {s t : String} (hs : IsNested s) (ht : IsNested t) :
    IsNested (s ++ "(" ++ t ++ ")") := by
  rw [IsNested, String.toList_append, String.toList_append, String.toList_append,
    List.append_assoc, List.append_assoc]
  exact Chars.Nested.append hs (Chars.Nested.enclosed (o := '(') rfl ht)

theorem isNested_join {sep : String} (hsep : IsNested sep) {ws : List String}
    (h : ∀ w ∈ ws, IsNested w) : IsNested (join sep ws) := by
  rw [IsNested, toList_join]
  exact Chars.nested_join hsep (List.forall_mem_map.mpr h)

end Text

/-! ## The texts of an accessor -/

/-- The texts of a parameter. -/
def AccessorParameter.texts (p : AccessorParameter) : List String :=
  p.label.name?.toList ++ ([p.name, p.type] ++ p.defaultValue.toList)

/-- The texts of an argument. -/
def Argument.texts (a : Argument) : List String := a.label.toList ++ [a.value]

/-- The texts of a call. -/
def ForwardingCall.texts (c : ForwardingCall) : List String :=
  c.callee :: c.arguments.flatMap Argument.texts

/-- The texts of a property. -/
def AccessorProperty.texts (p : AccessorProperty) : List String := [p.name, p.type, p.target]

/-- The texts of a function. -/
def AccessorFunction.texts (f : AccessorFunction) : List String :=
  f.name :: (f.genericParams.toList ++ (f.parameters.flatMap AccessorParameter.texts
    ++ (f.effects.throwing.toList ++ (f.returnType.toList ++ (f.whereClause.toList
      ++ f.body.texts)))))

/-- The texts of an accessor without its attributes. -/
def AccessorKind.texts : AccessorKind → List String
  | .property p => p.texts
  | .function f => f.texts

/-- **The texts that an accessor is made of**, its attributes first. -/
def Accessor.texts (a : Accessor) : List String := a.attributes ++ a.kind.texts

/-! ## Renderings -/

namespace Rendering

open Text (IsNested)

/-- An optional text with something in front of it. -/
theorem isNested_behind {lead : String} (hlead : IsNested lead) {text : Option String}
    (h : ∀ t ∈ text.toList, IsNested t) : IsNested (behind lead text) := by
  cases text with
  | none => exact show IsNested "" by decide
  | some t => exact hlead.append (h t (List.mem_singleton_self t))

/-- A label is nested, if its name is. -/
theorem isNested_text_label {l : Label} (h : ∀ t ∈ l.name?.toList, IsNested t) :
    IsNested l.text := by
  cases l with
  | named name => exact h name (List.mem_singleton_self name)
  | wildcard => exact show IsNested "_" by decide

theorem isNested_staticKeyword (isStatic : Bool) : IsNested (staticKeyword isStatic) := by
  cases isStatic with
  | true => exact show IsNested "static " by decide
  | false => exact show IsNested "" by decide

/-- A parameter in a signature. -/
theorem isNested_parameter {p : AccessorParameter} (h : ∀ t ∈ p.texts, IsNested t) :
    IsNested (parameter p) := by
  simp only [AccessorParameter.texts, List.forall_mem_append, List.forall_mem_cons] at h
  obtain ⟨hlabel, ⟨hname, htype, -⟩, hdefault⟩ := h
  have hfront : IsNested (p.label.text ++ " " ++ p.name ++ ": " ++ p.type) :=
    ((((isNested_text_label hlabel).append (by decide)).append hname).append
      (by decide)).append htype
  exact hfront.append (isNested_behind (by decide) hdefault)

/-- An argument of a call. -/
theorem isNested_argument {a : Argument} (h : ∀ t ∈ a.texts, IsNested t) :
    IsNested (argument a) := by
  simp only [Argument.texts, List.forall_mem_append, List.forall_mem_singleton] at h
  obtain ⟨hlabel, hvalue⟩ := h
  have hsign : IsNested ((if a.isInout then "&" else "") ++ a.value) := by
    cases a.isInout with
    | true => exact Text.IsNested.append (by decide) hvalue
    | false => exact Text.IsNested.append (by decide) hvalue
  unfold argument
  dsimp only
  split
  · rename_i label hname
    have hlabel' := hlabel label (by rw [hname]; exact List.mem_singleton_self label)
    exact (hlabel'.append (by decide)).append hsign
  · exact hsign

/-- **A call**, with its arguments in parentheses. -/
theorem isNested_call {c : ForwardingCall} (h : ∀ t ∈ c.texts, IsNested t) :
    IsNested (call c) := by
  simp only [ForwardingCall.texts, List.forall_mem_cons] at h
  obtain ⟨hcallee, harguments⟩ := h
  have hmarks : IsNested
      ((if c.isTry then "try " else "") ++ (if c.isAwait then "await " else "")) := by
    cases c.isTry <;> cases c.isAwait <;> decide
  refine (hmarks.append hcallee).parenthesized (Text.isNested_join (by decide) ?_)
  rw [List.forall_mem_map]
  exact fun a ha => isNested_argument fun t ht =>
    harguments t (List.mem_flatMap.mpr ⟨a, ha, ht⟩)

/-- The head of a property. -/
theorem isNested_propertyHeader {p : AccessorProperty} (h : ∀ t ∈ p.texts, IsNested t) :
    IsNested (propertyHeader p) := by
  simp only [AccessorProperty.texts, List.forall_mem_cons] at h
  obtain ⟨hname, htype, -⟩ := h
  have hpublic : IsNested "public " := by decide
  exact ((((hpublic.append (isNested_staticKeyword _)).append (by decide)).append
    hname).append (by decide)).append htype

/-- **The head of a function**, with its parameters in parentheses. -/
theorem isNested_functionHeader {f : AccessorFunction} (h : ∀ t ∈ f.texts, IsNested t) :
    IsNested (functionHeader f) := by
  simp only [AccessorFunction.texts, List.forall_mem_cons, List.forall_mem_append] at h
  obtain ⟨hname, hgeneric, hparameters, hthrowing, hreturn, hwhere, -⟩ := h
  have hpublic : IsNested "public " := by decide
  have hempty : IsNested "" := by decide
  have hfront : IsNested ("public " ++ staticKeyword f.isStatic ++ "func " ++ f.name
      ++ behind "" f.genericParams) :=
    (((hpublic.append (isNested_staticKeyword _)).append (by decide)).append
      hname).append (isNested_behind hempty hgeneric)
  have hlist : IsNested (Text.join ", " (f.parameters.map parameter)) := by
    refine Text.isNested_join (by decide) ?_
    rw [List.forall_mem_map]
    exact fun p hp => isNested_parameter fun t ht =>
      hparameters t (List.mem_flatMap.mpr ⟨p, hp, ht⟩)
  have hasync : IsNested (if f.effects.isAsync then " async" else "") := by
    cases f.effects.isAsync <;> decide
  exact ((((hfront.parenthesized hlist).append hasync).append
    (isNested_behind (by decide) hthrowing)).append
    (isNested_behind (by decide) hreturn)).append
    (isNested_behind (by decide) hwhere)

/-- An indentation has no brackets. -/
theorem nested_indent (r : Rendering) (level : Nat) : Chars.Nested (r.indent level).toList := by
  refine Chars.nested_of_forall fun c hc => ?_
  rw [indent, String.toList_ofList] at hc
  rw [List.eq_of_mem_replicate hc]
  exact ⟨rfl, rfl⟩

/-- **A block**, with its items in braces. -/
theorem isNested_block (r : Rendering) (level : Nat) {header : String} (hheader : IsNested header)
    {items : List String} (h : ∀ t ∈ items, IsNested t) :
    IsNested (r.block level header items) := by
  have hspace : Chars.Nested [' '] := by decide
  have hfeed : Chars.Nested ['\n'] := by decide
  have hitems : ∀ cs ∈ items.map String.toList, Chars.Nested cs := List.forall_mem_map.mpr h
  unfold Text.IsNested
  cases hlayout : r.layout with
  | compact =>
    have hinner : Chars.Nested
        ((items.map String.toList).flatMap (fun t => ' ' :: t) ++ [' ']) :=
      (Chars.nested_flatMap fun t ht => hspace.append (hitems t ht)).append hspace
    rw [toList_block_of_compact hlayout]
    have hbraces := hspace.append (hinner.enclosed (o := '\x7b') rfl)
    simpa using Chars.Nested.append hheader hbraces
  | expanded =>
    have hlines : Chars.Nested ((items.map String.toList).flatMap
        (fun t => (r.indent (level + 1)).toList ++ t ++ ['\n'])) :=
      Chars.nested_flatMap fun t ht =>
        ((r.nested_indent (level + 1)).append (hitems t ht)).append hfeed
    have hinner := (hfeed.append hlines).append (r.nested_indent level)
    rw [toList_block_of_expanded hlayout]
    have hbraces := hspace.append (hinner.enclosed (o := '\x7b') rfl)
    simpa using Chars.Nested.append hheader hbraces

/-- **An accessor without its attributes.** -/
theorem isNested_body (r : Rendering) {k : AccessorKind} (h : ∀ t ∈ k.texts, IsNested t) :
    IsNested (r.body k) := by
  cases k with
  | property p =>
    have htarget : IsNested p.target := h _ (by simp [AccessorKind.texts, AccessorProperty.texts])
    have hget : IsNested (r.block 1 "get" [p.target]) :=
      r.isNested_block 1 (by decide) (List.forall_mem_singleton.mpr htarget)
    have hset : IsNested (r.block 1 "set" [p.target ++ " = newValue"]) :=
      r.isNested_block 1 (by decide)
        (List.forall_mem_singleton.mpr (htarget.append (by decide)))
    refine r.isNested_block 0 (isNested_propertyHeader h) ?_
    split
    · exact List.forall_mem_cons.mpr ⟨hget, List.forall_mem_singleton.mpr hset⟩
    · exact List.forall_mem_singleton.mpr hget
  | function f =>
    refine r.isNested_block 0 (isNested_functionHeader h) (List.forall_mem_singleton.mpr ?_)
    refine isNested_call fun t ht => h t ?_
    simp only [AccessorKind.texts, AccessorFunction.texts, List.mem_cons, List.mem_append, ht,
      or_true]

theorem isNested_attributeSeparator (r : Rendering) : IsNested r.attributeSeparator := by
  unfold attributeSeparator
  cases r.layout <;> decide

theorem isNested_accessorSeparator (r : Rendering) : IsNested r.accessorSeparator := by
  unfold accessorSeparator
  cases r.layout <;> decide

/-- **An accessor with its attributes.** -/
theorem isNested_render (r : Rendering) {a : Accessor} (h : ∀ t ∈ a.texts, IsNested t) :
    IsNested (r.render a) := by
  simp only [Accessor.texts, List.forall_mem_append] at h
  obtain ⟨hattributes, hkind⟩ := h
  unfold render
  split
  · exact r.isNested_body hkind
  · exact ((Text.isNested_join r.isNested_attributeSeparator hattributes).append
      r.isNested_attributeSeparator).append (r.isNested_body hkind)

/-- **Accessors of nested texts have nested renderings.** If all texts that
some accessors are made of are properly nested, so is the text of each of them,
and so is the text of all of them together, in both layouts and for every width
of the indentation. -/
theorem renderings_are_nested (r : Rendering) (accessors : List Accessor)
    (h : ∀ a ∈ accessors, ∀ t ∈ a.texts, IsNested t) :
    (∀ a ∈ accessors, IsNested (r.render a)) ∧ IsNested (r.renderAll accessors) := by
  have hrender : ∀ a ∈ accessors, IsNested (r.render a) := fun a ha => r.isNested_render (h a ha)
  exact ⟨hrender, Text.isNested_join r.isNested_accessorSeparator
    (List.forall_mem_map.mpr hrender)⟩

/-- A function with brackets in all of its texts, and a property that can be
assigned. -/
def bracketedAccessors : List Accessor :=
  [{ attributes := ["@available(iOS 13, *)"],
     kind := .function
      { name := "_test_f", isStatic := true, genericParams := some "<T: P<[Int]>>",
        parameters :=
          [{ label := .named "by", name := "arg0", type := "([Int]) -> [(A, B)]",
             defaultValue := some "\x7b [($0[0], f())] \x7d" },
            { label := .wildcard, name := "arg1", type := "[String: (Int)]" }],
        effects := { isAsync := true, throwing := some "throws(E)" },
        returnType := some "([Int], () -> Void)", whereClause := some "where T == [Int]",
        body :=
          { callee := "f", arguments := [{ label := some "by", value := "arg0" },
            { value := "arg1", isInout := true }], isTry := true } } },
    { attributes := [],
      kind := .property
        { name := "__test_x", type := "[Int]", isStatic := false, target := "self.x",
          settable := true } }]

/-- Their renderings are nested, although a text with a single bracket is
not. -/
theorem renderings_are_nested_bracketedAccessors :
    (∀ a ∈ bracketedAccessors, ∀ t ∈ a.texts, IsNested t)
      ∧ IsNested ((⟨.expanded, 3⟩ : Rendering).renderAll bracketedAccessors)
      ∧ IsNested ((⟨.compact, 0⟩ : Rendering).renderAll bracketedAccessors)
      ∧ ¬ IsNested ((⟨.compact, 0⟩ : Rendering).renderAll bracketedAccessors ++ "]") := by
  have h : ∀ a ∈ bracketedAccessors, ∀ t ∈ a.texts, IsNested t := by decide
  have hcompact := (renderings_are_nested ⟨.compact, 0⟩ bracketedAccessors h).2
  refine ⟨h, (renderings_are_nested ⟨.expanded, 3⟩ bracketedAccessors h).2, hcompact, ?_⟩
  rw [IsNested, String.toList_append, Chars.nested_iff, Chars.Nested.awaitedBehind_append hcompact]
  decide

end Rendering

end TestAccess
