import TestAccess.Accessor.Json
import TestAccess.Proofs.AbridgedJson
import TestAccess.Request.Json

/-!
# Requests, diagnostics and accessors are read back from JSON

What is written in JSON is read back as what it was, for every request, every
diagnostic and every accessor, and it still is after any of the members that
go without saying have been left out, on any level. In a request these are the
members that are `null` and those that hold a default (`Request.defaults`); an
accessor and a diagnostic have no defaults, so that only `null` may be left
out of them.

There is one lemma for each type, which reads its fields one after the other
and cites the lemmas of the types of the fields; the statement for all three
is `json_round_trip`. A request or a diagnostic carries a place in its source,
and the numbers in it must fit into the widths that they are read with
(`Span.IsBounded`); there is no condition on anything else.
-/

namespace TestAccess

open Json

/-! ## What goes without saying in a request -/

/-- **The defaults in a request**: the members that may be left out of the
object they are in when they hold these values. A name has the same default
wherever it has one. -/
def Request.defaults : List (String × Json) :=
  [("is_static", .bool false), ("effects", Effects.toJson {}),
    ("failability", Failability.toJson .infallible), ("accessors", Storage.toJson .stored),
    ("attributes", .texts []), ("is_final", .bool false)]

/-- A truth value that may be left out is `false`. -/
theorem Request.eq_false_of_isSilent {name : String} {b : Bool}
    (h : IsSilent Request.defaults name (.bool b)) : b = false := by
  rcases h with h | h
  · exact Json.noConfusion h
  · simp only [Request.defaults, List.mem_cons, Prod.mk.injEq, List.not_mem_nil, or_false] at h
    rcases h with ⟨-, h⟩ | ⟨-, h⟩ | ⟨-, h⟩ | ⟨-, h⟩ | ⟨-, h⟩ | ⟨-, h⟩
    · exact Json.bool.inj h
    · exact Json.noConfusion h
    · exact Json.noConfusion h
    · exact Json.noConfusion h
    · exact Json.noConfusion h
    · exact Json.bool.inj h

/-! ## Declarations -/

section

variable {j : Json}

theorem Label.ofJson?_of_abridged {l : Label} (h : Abridged Request.defaults l.toJson j) :
    ofJson? j = some l := by
  cases l with
  | named name =>
    rw [eq_of_abridged_alternative h (by decide)]
    rfl
  | wildcard =>
    rw [(abridged_text_iff ..).mp h]
    rfl

theorem Label.toJson_ne_null (l : Label) : l.toJson ≠ .null := by
  cases l <;> nofun

theorem Label.isTelling_toJson (l : Label) : IsTelling Request.defaults l.toJson := by
  cases l with
  | named name =>
    exact isTelling_object (List.mem_cons_self ..) (by decide) nofun ⟨isTelling_text name, trivial⟩
  | wildcard => exact isTelling_text _

theorem Parameter.ofJson?_of_abridged {p : Parameter}
    (h : Abridged Request.defaults p.toJson j) : ofJson? j = some p := by
  obtain ⟨r, hr, h⟩ := exists_record?_eq h (by simp)
  rw [ofJson?, hr, Option.bind_eq_bind, Option.bind_some,
    h.required_eq "label" rfl (by decide) p.label.toJson_ne_null fun _ => Label.ofJson?_of_abridged,
    h.required_text "ty" rfl (by decide), h.optional_text "default_value" rfl (by decide)]
  rfl

theorem Parameter.isTelling_toJson (p : Parameter) : IsTelling Request.defaults p.toJson :=
  isTelling_object (List.mem_cons_self ..) (by decide) p.label.toJson_ne_null
    ⟨p.label.isTelling_toJson, isTelling_text _, isTelling_option_text _, trivial⟩

theorem Effects.ofJson?_of_abridged {e : Effects} (h : Abridged Request.defaults e.toJson j) :
    ofJson? j = some e := by
  obtain ⟨r, hr, h⟩ := exists_record?_eq h (by simp)
  rw [ofJson?, hr, Option.bind_eq_bind, Option.bind_some,
    h.required_bool "is_async" rfl (by decide),
    h.optional_text "throws" rfl (by decide)]
  rfl

theorem Effects.isTelling_toJson (e : Effects) : IsTelling Request.defaults e.toJson :=
  isTelling_object (List.mem_cons_self ..) (by decide) nofun
    ⟨isTelling_bool _, isTelling_option_text _, trivial⟩

/-- Effects that may be left out are none. -/
theorem Effects.eq_of_isSilent {e : Effects}
    (h : IsSilent Request.defaults "effects" e.toJson) : e = {} := by
  obtain ⟨isAsync, throwing⟩ := e
  cases throwing with
  | none =>
    have hasync : isAsync = false := by
      simpa [IsSilent, Request.defaults, Effects.toJson, Json.option] using h
    rw [hasync]
  | some clause =>
    exact absurd h (by simp [IsSilent, Request.defaults, Effects.toJson, Json.option])

theorem Mutability.ofJson?_of_abridged {m : Mutability}
    (h : Abridged Request.defaults m.toJson j) : ofJson? j = some m := by
  rw [(abridged_text_iff ..).mp h]
  cases m <;> rfl

theorem Storage.ofJson?_of_abridged {s : Storage} (h : Abridged Request.defaults s.toJson j) :
    ofJson? j = some s := by
  rw [(abridged_text_iff ..).mp h]
  obtain _ | _ | _ | _ := s <;> rfl

/-- Storage that may be left out is the plain one. -/
theorem Storage.eq_of_isSilent {s : Storage}
    (h : IsSilent Request.defaults "accessors" s.toJson) : s = .stored := by
  have hname : s.name = Storage.stored.name := by
    simpa [IsSilent, Request.defaults, Storage.toJson] using h
  obtain _ | _ | _ | _ := s
  · rfl
  all_goals exact absurd hname (by decide)

theorem Failability.ofJson?_of_abridged {f : Failability}
    (h : Abridged Request.defaults f.toJson j) : ofJson? j = some f := by
  rw [(abridged_text_iff ..).mp h]
  cases f <;> rfl

/-- A failability that may be left out is that of an initializer that cannot
fail. -/
theorem Failability.eq_of_isSilent {f : Failability}
    (h : IsSilent Request.defaults "failability" f.toJson) : f = .infallible := by
  have hname : f.name = Failability.infallible.name := by
    simpa [IsSilent, Request.defaults, Failability.toJson] using h
  cases f
  · rfl
  all_goals exact absurd hname (by decide)

theorem Pattern.ofJson?_of_abridged {p : Pattern} (h : Abridged Request.defaults p.toJson j) :
    ofJson? j = some p := by
  cases p <;> rw [eq_of_abridged_alternative h (by decide)] <;> rfl

theorem Pattern.toJson_ne_null (p : Pattern) : p.toJson ≠ .null := by
  cases p <;> nofun

theorem Pattern.isTelling_toJson (p : Pattern) : IsTelling Request.defaults p.toJson := by
  cases p with
  | identifier name =>
    exact isTelling_object (List.mem_cons_self ..) (by decide) nofun ⟨isTelling_text name, trivial⟩
  | destructured text =>
    exact isTelling_object (List.mem_cons_self ..) (by decide) nofun ⟨isTelling_text text, trivial⟩

theorem Binding.ofJson?_of_abridged {b : Binding} (h : Abridged Request.defaults b.toJson j) :
    ofJson? j = some b := by
  obtain ⟨r, hr, h⟩ := exists_record?_eq h (by simp)
  rw [ofJson?, hr, Option.bind_eq_bind, Option.bind_some,
    h.required_eq "pattern" rfl (by decide) b.pattern.toJson_ne_null fun _ =>
      Pattern.ofJson?_of_abridged,
    h.optional_text "declared_type" rfl (by decide),
    h.defaulted_eq "accessors" rfl Storage.eq_of_isSilent fun _ => Storage.ofJson?_of_abridged]
  rfl

theorem Binding.isTelling_toJson (b : Binding) : IsTelling Request.defaults b.toJson :=
  isTelling_object (List.mem_cons_self ..) (by decide) b.pattern.toJson_ne_null
    ⟨b.pattern.isTelling_toJson, isTelling_option_text _, isTelling_text _, trivial⟩

/-! ### The shapes of declarations

The fields of a shape are read out of the object of the declaration, which
also has the member that names the shape. -/

variable {shape : String}

theorem Property.ofJson?_of_abridged {p : Property}
    (h : Abridged Request.defaults (.object (("shape", .text shape) :: p.members)) j) :
    ofJson? j = some p := by
  obtain ⟨r, hr, h⟩ := exists_record?_eq h (by simp [members])
  rw [ofJson?, hr, Option.bind_eq_bind, Option.bind_some,
    h.required_eq "binding_kind" rfl (by decide) nofun fun _ => Mutability.ofJson?_of_abridged,
    h.required_list "bindings" rfl (by decide) fun _ _ _ => Binding.ofJson?_of_abridged,
    h.defaulted_bool "is_static" rfl Request.eq_false_of_isSilent]
  rfl

theorem Property.membersTelling (p : Property) : MembersTelling Request.defaults p.members :=
  ⟨isTelling_text _, isTelling_list fun b _ => b.isTelling_toJson, isTelling_bool _, trivial⟩

theorem Method.ofJson?_of_abridged {m : Method}
    (h : Abridged Request.defaults (.object (("shape", .text shape) :: m.members)) j) :
    ofJson? j = some m := by
  obtain ⟨r, hr, h⟩ := exists_record?_eq h (by simp [members])
  rw [ofJson?, hr, Option.bind_eq_bind, Option.bind_some,
    h.required_text "name" rfl (by decide), h.optional_text "generic_params" rfl (by decide),
    h.required_list "parameters" rfl (by decide) fun _ _ _ => Parameter.ofJson?_of_abridged,
    h.defaulted_eq "effects" rfl Effects.eq_of_isSilent fun _ => Effects.ofJson?_of_abridged,
    h.optional_text "return_type" rfl (by decide), h.optional_text "where_clause" rfl (by decide),
    h.defaulted_bool "is_static" rfl Request.eq_false_of_isSilent]
  rfl

theorem Method.membersTelling (m : Method) : MembersTelling Request.defaults m.members :=
  ⟨isTelling_text _, isTelling_option_text _, isTelling_list fun p _ => p.isTelling_toJson,
    m.effects.isTelling_toJson, isTelling_option_text _, isTelling_option_text _, isTelling_bool _,
    trivial⟩

theorem Initializer.ofJson?_of_abridged {i : Initializer}
    (h : Abridged Request.defaults (.object (("shape", .text shape) :: i.members)) j) :
    ofJson? j = some i := by
  obtain ⟨r, hr, h⟩ := exists_record?_eq h (by simp [members])
  rw [ofJson?, hr, Option.bind_eq_bind, Option.bind_some,
    h.required_bool "is_required" rfl (by decide),
    h.defaulted_eq "failability" rfl Failability.eq_of_isSilent fun _ =>
      Failability.ofJson?_of_abridged,
    h.optional_text "generic_params" rfl (by decide),
    h.required_list "parameters" rfl (by decide) fun _ _ _ => Parameter.ofJson?_of_abridged,
    h.defaulted_eq "effects" rfl Effects.eq_of_isSilent fun _ => Effects.ofJson?_of_abridged,
    h.optional_text "where_clause" rfl (by decide)]
  rfl

theorem Initializer.membersTelling (i : Initializer) :
    MembersTelling Request.defaults i.members :=
  ⟨isTelling_bool _, isTelling_text _, isTelling_option_text _,
    isTelling_list fun p _ => p.isTelling_toJson, i.effects.isTelling_toJson,
    isTelling_option_text _, trivial⟩

theorem Declaration.membersTelling (d : Declaration) :
    MembersTelling Request.defaults d.members := by
  cases d with
  | property p => exact p.membersTelling
  | method m => exact m.membersTelling
  | initializer i => exact i.membersTelling
  | unrecognized kind => exact ⟨isTelling_text kind, trivial⟩

/-- **A declaration is read back**, whatever its shape. -/
theorem Declaration.ofJson?_of_abridged {d : Declaration}
    (h : Abridged Request.defaults d.toJson j) : ofJson? j = some d := by
  rw [ofJson?, shaped?_of_abridged h (by decide) d.membersTelling, Option.bind_eq_bind,
    Option.bind_some]
  cases d with
  | property p => exact congrArg (Option.map _) (Property.ofJson?_of_abridged h)
  | method m => exact congrArg (Option.map _) (Method.ofJson?_of_abridged h)
  | initializer i => exact congrArg (Option.map _) (Initializer.ofJson?_of_abridged h)
  | unrecognized kind =>
    obtain ⟨r, hr, h⟩ := exists_record?_eq h (by simp [members])
    show (j.record? ["kind"]).bind _ = _
    rw [hr, Option.bind_some, h.required_text "kind" rfl (by decide)]
    rfl

/-! ## Requests and diagnostics -/

/-- **A place fits into the widths that it is read with**: lines into 32 bits,
offsets into 64. -/
structure Span.IsBounded (s : Span) : Prop where
  startLine_lt : s.startLine < UInt32.size
  endLine_lt : s.endLine < UInt32.size
  startByte_lt : s.startByte < UInt64.size
  endByte_lt : s.endByte < UInt64.size

/-- The place of an anchor fits, if it has one. -/
def Anchor.IsBounded (a : Anchor) : Prop := ∀ s ∈ a.span, s.IsBounded

theorem Span.ofJson?_of_abridged {s : Span} (hs : s.IsBounded)
    (h : Abridged Request.defaults s.toJson j) : ofJson? j = some s := by
  obtain ⟨r, hr, h⟩ := exists_record?_eq h (by simp)
  rw [ofJson?, hr, Option.bind_eq_bind, Option.bind_some, Json.line?, Json.size?,
    h.required_nat "start_line" hs.startLine_lt rfl (by decide),
    h.required_nat "end_line" hs.endLine_lt rfl (by decide),
    h.required_nat "start_byte" hs.startByte_lt rfl (by decide),
    h.required_nat "end_byte" hs.endByte_lt rfl (by decide)]
  rfl

theorem Anchor.ofJson?_of_abridged {a : Anchor} (ha : a.IsBounded)
    (h : Abridged Request.defaults a.toJson j) : ofJson? j = some a := by
  obtain ⟨r, hr, h⟩ := exists_record?_eq h (by simp)
  rw [ofJson?, hr, Option.bind_eq_bind, Option.bind_some,
    h.required_text "description" rfl (by decide),
    h.optional_eq "span" rfl (by decide) (fun _ _ => object_ne_null _)
      fun s hs _ => Span.ofJson?_of_abridged (ha s hs)]
  rfl

theorem EnclosingType.ofJson?_of_abridged {t : EnclosingType}
    (h : Abridged Request.defaults t.toJson j) : ofJson? j = some t := by
  have hkeyword : ∀ j, Abridged Request.defaults (.text t.keyword.text) j →
      choice? TypeKeyword.table j = some t.keyword := by
    intro j hj
    rw [(abridged_text_iff ..).mp hj]
    exact t.keyword.ofText?_text
  obtain ⟨r, hr, h⟩ := exists_record?_eq h (by simp)
  rw [ofJson?, hr, Option.bind_eq_bind, Option.bind_some,
    h.required_eq "kind" rfl (by decide) nofun hkeyword, h.optional_text "name" rfl (by decide),
    h.defaulted_bool "is_final" rfl Request.eq_false_of_isSilent]
  rfl

/-- **A request is read back.** -/
theorem Request.ofJson?_of_abridged {q : Request} (hq : q.anchor.IsBounded)
    (h : Abridged Request.defaults q.toJson j) : ofJson? j = some q := by
  have hattributes : IsSilent Request.defaults "attributes" (.texts q.attributes) →
      q.attributes = [] := by
    intro hsilent
    simpa [IsSilent, Request.defaults, Json.texts, Json.list] using hsilent
  have henclosing : IsSilent Request.defaults "enclosing"
      (.option EnclosingType.toJson q.enclosing) → q.enclosing = none := by
    intro hsilent
    cases henclosing : q.enclosing with
    | none => rfl
    | some t =>
      rw [henclosing] at hsilent
      exact absurd hsilent (not_isSilent (object_ne_null _) (by decide))
  have hread : ∀ j, Abridged Request.defaults (.option EnclosingType.toJson q.enclosing) j →
      Json.option? EnclosingType.ofJson? j = some q.enclosing := fun _ hj =>
    option?_of_abridged (fun _ _ => object_ne_null _)
      (fun _ _ _ => EnclosingType.ofJson?_of_abridged) hj
  obtain ⟨r, hr, h⟩ := exists_record?_eq h (by simp)
  rw [ofJson?, hr, Option.bind_eq_bind, Option.bind_some,
    h.required_eq "declaration" rfl (by decide) (object_ne_null _) fun _ =>
      Declaration.ofJson?_of_abridged,
    h.defaulted_eq "attributes" rfl hattributes fun _ => texts?_of_abridged,
    h.required_eq "anchor" rfl (by decide) (object_ne_null _) fun _ =>
      Anchor.ofJson?_of_abridged hq,
    h.defaulted_eq "enclosing" rfl henclosing hread]
  rfl

/-- **A diagnostic is read back.** -/
theorem Diagnostic.ofJson?_of_abridged {d : Diagnostic} (hd : d.anchor.IsBounded)
    (h : Abridged [] d.toJson j) : ofJson? j = some d := by
  have hseverity : ∀ j, Abridged [] (.text d.severity.text) j →
      choice? [("error", Severity.error)] j = some d.severity := by
    intro j hj
    rw [(abridged_text_iff ..).mp hj]
    cases d.severity
    rfl
  obtain ⟨r, hr, h⟩ := exists_record?_eq h (by simp)
  rw [ofJson?, hr, Option.bind_eq_bind, Option.bind_some,
    h.required_eq "severity" rfl (by decide) nofun hseverity,
    h.required_text "message" rfl (by decide),
    h.required_eq "anchor" rfl (by decide) (object_ne_null _)
      fun _ hj => Anchor.ofJson?_of_abridged hd hj.of_nil]
  rfl

/-! ## Accessors

The labels and the effects of an accessor are those of a declaration, where
more may be left out. -/

theorem AccessorParameter.ofJson?_of_abridged {p : AccessorParameter}
    (h : Abridged [] p.toJson j) : ofJson? j = some p := by
  obtain ⟨r, hr, h⟩ := exists_record?_eq h (by simp)
  rw [ofJson?, hr, Option.bind_eq_bind, Option.bind_some,
    h.required_eq "label" rfl (by decide) p.label.toJson_ne_null
      fun _ hj => Label.ofJson?_of_abridged hj.of_nil,
    h.required_text "name" rfl (by decide), h.required_text "ty" rfl (by decide),
    h.optional_text "default_value" rfl (by decide)]
  rfl

theorem AccessorParameter.isTelling_toJson (p : AccessorParameter) :
    IsTelling Request.defaults p.toJson :=
  isTelling_object (List.mem_cons_self ..) (by decide) p.label.toJson_ne_null
    ⟨p.label.isTelling_toJson, isTelling_text _, isTelling_text _, isTelling_option_text _,
      trivial⟩

theorem Argument.ofJson?_of_abridged {a : Argument} (h : Abridged [] a.toJson j) :
    ofJson? j = some a := by
  obtain ⟨r, hr, h⟩ := exists_record?_eq h (by simp)
  rw [ofJson?, hr, Option.bind_eq_bind, Option.bind_some,
    h.optional_text "label" rfl (by decide), h.required_text "value" rfl (by decide),
    h.required_bool "is_inout" rfl (by decide)]
  rfl

theorem Argument.isTelling_toJson (a : Argument) : IsTelling Request.defaults a.toJson :=
  isTelling_object (List.mem_cons_of_mem _ (List.mem_cons_self ..)) (by decide) nofun
    ⟨isTelling_option_text _, isTelling_text _, isTelling_bool _, trivial⟩

theorem ForwardingCall.ofJson?_of_abridged {c : ForwardingCall} (h : Abridged [] c.toJson j) :
    ofJson? j = some c := by
  obtain ⟨r, hr, h⟩ := exists_record?_eq h (by simp)
  rw [ofJson?, hr, Option.bind_eq_bind, Option.bind_some,
    h.required_text "callee" rfl (by decide),
    h.required_list "arguments" rfl (by decide) fun _ _ _ => Argument.ofJson?_of_abridged,
    h.required_bool "is_try" rfl (by decide), h.required_bool "is_await" rfl (by decide)]
  rfl

theorem ForwardingCall.isTelling_toJson (c : ForwardingCall) :
    IsTelling Request.defaults c.toJson :=
  isTelling_object (List.mem_cons_self ..) (by decide) nofun
    ⟨isTelling_text _, isTelling_list fun a _ => a.isTelling_toJson, isTelling_bool _,
      isTelling_bool _, trivial⟩

variable {kind : String}

theorem AccessorProperty.ofJson?_of_abridged {p : AccessorProperty}
    (h : Abridged [] (.object (("kind", .text kind) :: p.members)) j) : ofJson? j = some p := by
  obtain ⟨r, hr, h⟩ := exists_record?_eq h (by simp [members])
  rw [ofJson?, hr, Option.bind_eq_bind, Option.bind_some, h.required_text "name" rfl (by decide),
    h.required_text "ty" rfl (by decide), h.required_bool "is_static" rfl (by decide),
    h.required_text "target" rfl (by decide), h.required_bool "settable" rfl (by decide)]
  rfl

theorem AccessorProperty.membersTelling (p : AccessorProperty) :
    MembersTelling Request.defaults p.members :=
  ⟨isTelling_text _, isTelling_text _, isTelling_bool _, isTelling_text _, isTelling_bool _,
    trivial⟩

theorem AccessorFunction.ofJson?_of_abridged {f : AccessorFunction}
    (h : Abridged [] (.object (("kind", .text kind) :: f.members)) j) : ofJson? j = some f := by
  obtain ⟨r, hr, h⟩ := exists_record?_eq h (by simp [members])
  rw [ofJson?, hr, Option.bind_eq_bind, Option.bind_some, h.required_text "name" rfl (by decide),
    h.required_bool "is_static" rfl (by decide), h.optional_text "generic_params" rfl (by decide),
    h.required_list "parameters" rfl (by decide) fun _ _ _ => AccessorParameter.ofJson?_of_abridged,
    h.required_eq "effects" rfl (by decide) (object_ne_null _)
      fun _ hj => Effects.ofJson?_of_abridged hj.of_nil,
    h.optional_text "return_type" rfl (by decide), h.optional_text "where_clause" rfl (by decide),
    h.required_eq "body" rfl (by decide) (object_ne_null _) fun _ =>
      ForwardingCall.ofJson?_of_abridged]
  rfl

theorem AccessorFunction.membersTelling (f : AccessorFunction) :
    MembersTelling Request.defaults f.members :=
  ⟨isTelling_text _, isTelling_bool _, isTelling_option_text _,
    isTelling_list fun p _ => p.isTelling_toJson, f.effects.isTelling_toJson,
    isTelling_option_text _, isTelling_option_text _, f.body.isTelling_toJson, trivial⟩

theorem AccessorKind.ofJson?_of_abridged {k : AccessorKind} (h : Abridged [] k.toJson j) :
    ofJson? j = some k := by
  cases k with
  | property p =>
    rw [ofJson?, shaped?_of_abridged h.of_nil (by decide) p.membersTelling, Option.bind_eq_bind,
      Option.bind_some]
    exact congrArg (Option.map _) (AccessorProperty.ofJson?_of_abridged h)
  | function f =>
    rw [ofJson?, shaped?_of_abridged h.of_nil (by decide) f.membersTelling, Option.bind_eq_bind,
      Option.bind_some]
    exact congrArg (Option.map _) (AccessorFunction.ofJson?_of_abridged h)

theorem AccessorKind.toJson_ne_null (k : AccessorKind) : k.toJson ≠ .null := by
  cases k <;> nofun

/-- **An accessor is read back.** -/
theorem Accessor.ofJson?_of_abridged {a : Accessor} (h : Abridged [] a.toJson j) :
    ofJson? j = some a := by
  obtain ⟨r, hr, h⟩ := exists_record?_eq h (by simp)
  rw [ofJson?, hr, Option.bind_eq_bind, Option.bind_some,
    h.required_eq "attributes" rfl (by decide) nofun fun _ => texts?_of_abridged,
    h.required_eq "kind" rfl (by decide) a.kind.toJson_ne_null
      fun _ => AccessorKind.ofJson?_of_abridged]
  rfl

end

/-! ## The round trip -/

/-- **What is written in JSON is read back.** A request and a diagnostic whose
place fits into the widths it is read with, and every accessor, are read from
their JSON as what they were. They still are when members that go without
saying have been left out of any of the objects: in a request those that are
`null` or hold their default, in a diagnostic and in an accessor those that
are `null`. -/
theorem json_round_trip :
    (∀ q : Request, q.anchor.IsBounded →
        Request.ofJson? q.toJson = some q
          ∧ ∀ j, Abridged Request.defaults q.toJson j → Request.ofJson? j = some q)
      ∧ (∀ d : Diagnostic, d.anchor.IsBounded →
          Diagnostic.ofJson? d.toJson = some d
            ∧ ∀ j, Abridged [] d.toJson j → Diagnostic.ofJson? j = some d)
      ∧ ∀ a : Accessor,
          Accessor.ofJson? a.toJson = some a
            ∧ ∀ j, Abridged [] a.toJson j → Accessor.ofJson? j = some a := by
  refine ⟨fun q hq => ⟨?_, fun j => ?_⟩, fun d hd => ⟨?_, fun j => ?_⟩, fun a => ⟨?_, fun j => ?_⟩⟩
  · exact Request.ofJson?_of_abridged hq (Abridged.refl _ _)
  · exact Request.ofJson?_of_abridged hq
  · exact Diagnostic.ofJson?_of_abridged hd (Abridged.refl _ _)
  · exact Diagnostic.ofJson?_of_abridged hd
  · exact Accessor.ofJson?_of_abridged (Abridged.refl _ _)
  · exact Accessor.ofJson?_of_abridged

/-- A request for an initializer that says as little as possible. -/
def plainRequest : Request :=
  { declaration := .initializer
      { isRequired := true, parameters := [{ label := .wildcard, type := "Int" }] },
    anchor := { description := "init", span := some ⟨1, 1, 0, 20⟩ },
    enclosing := some { keyword := .classType } }

/-- The declaration of the request, without the members that go without
saying. -/
def plainDeclarationJson : Json :=
  .object [("shape", .text "initializer"), ("is_required", .bool true),
    ("parameters", .array [.object [("label", .text "wildcard"), ("ty", .text "Int")]])]

/-- The request without the members that go without saying. -/
def plainRequestJson : Json :=
  .object [("declaration", plainDeclarationJson), ("anchor", plainRequest.anchor.toJson),
    ("enclosing", .object [("kind", .text "class")])]

/-- The request is read back from the members that have to be there. -/
theorem json_round_trip_plainRequest :
    plainRequest.anchor.IsBounded ∧ Abridged Request.defaults plainRequest.toJson plainRequestJson
      ∧ Request.ofJson? plainRequestJson = some plainRequest := by
  have hbounded : plainRequest.anchor.IsBounded := by
    intro s hs
    obtain rfl := Option.some.inj hs
    exact ⟨by decide, by decide, by decide, by decide⟩
  -- of the declaration, all is left out but its shape, the first field and the parameters
  have hdeclaration :
      Abridged Request.defaults plainRequest.declaration.toJson plainDeclarationJson :=
    .object <| .keep (.text _) <| .keep (.bool _) <| .drop (.inr (by simp [Request.defaults])) <|
      .drop (.inl rfl) <|
      .keep (.array <|
        .cons (.object <| .keep (.text _) <| .keep (.text _) <| .drop (.inl rfl) .nil) .nil) <|
      .drop (.inr (by simp [Request.defaults])) <| .drop (.inl rfl) .nil
  have hrequest : Abridged Request.defaults plainRequest.toJson plainRequestJson :=
    .object <| .keep hdeclaration <| .drop (.inr (by simp [Request.defaults, plainRequest])) <|
      .keep (.refl _ _) <|
      .keep (.object <| .keep (.text _) <| .drop (.inl rfl) <|
        .drop (.inr (by simp [Request.defaults])) .nil) .nil
  exact ⟨hbounded, hrequest, ((json_round_trip.1 plainRequest hbounded).2 _ hrequest)⟩

end TestAccess
