import TestAccess.Report

/-!
# The log

A run keeps a log of what it meets: the configuration it has loaded, the
declarations it finds, the declarations it has no accessor for, and the
diagnostics. Nothing depends on the log, but it goes to the stream to which the
messages of the program go, and so it is part of what a run writes.

What is recorded is decided here, event by event and in order. What becomes of
an event is not: whether it is shown depends on a filter, and its line tells the
time. Both are up to a logger. Without a filter of its own a logger shows the
events from some level on, and no event of a run is a warning or an error
(`Log.Event.level_lt_warn`).
-/

namespace TestAccess

namespace Log

/-- How much an event matters, the least first. -/
inductive Level where
  | trace
  | debug
  | info
  | warn
  | error
deriving DecidableEq, Repr

/-- The place of a level among the levels. -/
def Level.rank : Level → Nat
  | .trace => 0
  | .debug => 1
  | .info => 2
  | .warn => 3
  | .error => 4

/-- **An event of a run.** -/
inductive Event where
  | loaded (c : Config)
  /-- A declaration with the annotation. -/
  | found (line : Nat) (shape : String)
  | scanned (path : String) (count : Nat)
  /-- A binding without a name that an accessor could have. -/
  | unnamed (pattern : String)
  | untyped (name : String)
  /-- A method without such a name. -/
  | operator (name : String)
  | variadic (callee : String) (index : Nat)
  | noAccessor (kind : String)
  | synthesized (declaration : String) (count : Nat)
  | reported (d : Diagnostic)
deriving DecidableEq, Repr

namespace Event

/-- How much the event matters. -/
def level : Event → Level
  | .found .. | .synthesized .. => .trace
  | _ => .debug

/-- The part of the program that records the event. Filters may ask for it. -/
def origin : Event → String
  | .loaded _ => "vft"
  | .found .. | .scanned .. => "vft_parser::swift"
  | .unnamed _ | .untyped _ => "vft_expand::property"
  | .operator _ => "vft_expand::method"
  | .variadic .. => "vft_expand::forwarding"
  | .noAccessor _ | .synthesized .. => "vft_expand"
  | .reported _ => "vft::pipeline"

/-- The event in words. -/
def message : Event → String
  | .loaded _ => "loaded configuration"
  | .found .. => "found annotated declaration"
  | .scanned .. => "scanned swift file"
  | .unnamed _ => "skipping non-identifier binding"
  | .untyped _ => "skipping binding without type annotation"
  | .operator _ => "skipping operator method"
  | .variadic .. => "skipping declaration with variadic parameter"
  | .noAccessor _ => "no test accessor for declaration shape"
  | .synthesized .. => "synthesized test accessors"
  | .reported _ => "expansion reported a diagnostic"

/-- What the event is about, by name. -/
def fields : Event → List (String × String)
  | .loaded c => [("config", reprStr c)]
  | .found line shape => [("line", toString line), ("shape", shape)]
  | .scanned path count => [("path", path), ("count", toString count)]
  | .unnamed pattern => [("pattern", pattern)]
  | .untyped name => [("name", name)]
  | .operator name => [("name", name)]
  | .variadic callee index => [("callee", callee), ("index", toString index)]
  | .noAccessor kind => [("kind", kind)]
  | .synthesized declaration count => [("declaration", declaration), ("count", toString count)]
  | .reported d => [("diagnostic", d.display)]

/-- **No event is a warning**, let alone an error. -/
theorem level_lt_warn (e : Event) : e.level.rank < Level.warn.rank := by
  unfold level
  split
  · decide
  · decide
  · decide

end Event

end Log

/-! ## What becomes of events -/

/-- **A logger**: which events it shows, and how. -/
structure Logger where
  /-- The filter that the environment asks for, if it asks for one. -/
  filter? : Option (Log.Event → Bool) := none
  /-- The line of an event. As lines tell the time, it counts how many have been
  shown before. -/
  line : Nat → Log.Event → String

namespace Logger

/-- Whether an event is shown where a level is the least that matters. The
filter of the environment comes before the level. -/
def shows (l : Logger) (least : Log.Level) (e : Log.Event) : Bool :=
  match l.filter? with
  | some filter => filter e
  | none => least.rank ≤ e.level.rank

/-- **The lines of events.** -/
def text (l : Logger) (least : Log.Level) (es : List Log.Event) : String :=
  Text.join "" ((es.filter (l.shows least)).mapIdx l.line)

/-- A logger that shows nothing. -/
def silent : Logger where
  filter? := some fun _ => false
  line _ _ := ""

/-- **Without a filter nothing is shown** where only warnings matter. -/
theorem text_eq_empty {l : Logger} (h : l.filter? = none) {least : Log.Level}
    (hleast : Log.Level.warn.rank ≤ least.rank) (es : List Log.Event) : l.text least es = "" := by
  have hnone : es.filter (l.shows least) = [] := by
    refine List.filter_eq_nil_iff.mpr fun e _ => ?_
    have hlevel := e.level_lt_warn
    simp only [shows, h, decide_eq_true_eq]
    omega
  rw [text, hnone]
  rfl

@[simp] theorem silent_text (least : Log.Level) (es : List Log.Event) :
    silent.text least es = "" := by
  have hnone : es.filter (silent.shows least) = [] :=
    List.filter_eq_nil_iff.mpr fun _ _ => Bool.false_ne_true
  rw [text, hnone]
  rfl

end Logger

/-! ## What an expansion records -/

/-- A parameter that takes any number of values is recorded with its place. -/
def Forwarding.events (callee : String) (source : List Parameter) : List Log.Event :=
  match source.findIdx? Parameter.isVariadic with
  | some index => [.variadic callee index]
  | none => []

/-- Why a binding has no accessor. -/
def Binding.events (b : Binding) : List Log.Event :=
  match b.pattern with
  | .identifier name =>
    if Naming.isIdentifier name then
      match b.declaredType with
      | some _ => []
      | none => [.untyped name]
    else [.unnamed name]
  | .destructured text => [.unnamed text]

/-- **Why a declaration lacks accessors**, when no policy stands against
them. -/
def Declaration.events : Declaration → List Log.Event
  | .property p => p.bindings.flatMap Binding.events
  | .method m =>
    if Naming.isIdentifier m.name then Forwarding.events m.name m.parameters
    else [.operator m.name]
  | .initializer i => Forwarding.events "init" i.parameters
  | .unrecognized kind => [.noAccessor kind]

/-- Whether the number of accessors is recorded. An initializer that cannot be
passed on ends the expansion before that. -/
def Declaration.isCounted : Declaration → Bool
  | .initializer i => Forwarding.isForwardable i.parameters
  | _ => true

/-- **What the expansion of a request records.** A rejected request leaves only
its diagnostic. -/
def Request.events (o : ExpansionOptions) (q : Request) : List Log.Event :=
  match q.rejection? o with
  | some d => [.reported d]
  | none =>
    q.declaration.events ++
      if q.declaration.isCounted then
        [.synthesized q.anchor.description q.declaration.accessorKinds.length]
      else []

/-- **What the report on a source records**: the declarations in the order of
the walk, their number, and then the expansion of each site. -/
def FileReport.events (c : Config) (path source : String) (root : Node) : List Log.Event :=
  let sites := root.scan source c.markerName
  (root.walk.filterMap (Node.Occurrence.site? source.toList c.markerName)).map
      (fun s => .found s.line s.request.declaration.shape) ++
    .scanned path sites.length :: sites.flatMap fun s => s.request.events c.options

/-! ## Nothing is passed over in silence -/

/-- Of a call nothing is recorded, or one event if it cannot be made. -/
theorem Forwarding.length_events (callee : String) (source : List Parameter) :
    (events callee source).length = if isForwardable source then 0 else 1 := by
  unfold events isForwardable
  cases hindex : source.findIdx? Parameter.isVariadic with
  | none =>
    have hall : (source.all fun p => !p.isVariadic) = true := by
      simpa using List.findIdx?_eq_none_iff.mp hindex
    rw [if_pos hall]
    rfl
  | some index =>
    obtain ⟨hlt, hvariadic, -⟩ := List.findIdx?_eq_some_iff_getElem.mp hindex
    have hnot : ¬ (source.all fun p => !p.isVariadic) = true := fun hall => by
      simpa [hvariadic] using List.all_eq_true.mp hall _ (List.getElem_mem hlt)
    rw [if_neg hnot]
    rfl

/-- A binding has an accessor or leaves an event. -/
theorem Binding.length_accessor?_add_length_events (b : Binding) (p : Property) :
    (b.accessor? p).toList.length + b.events.length = 1 := by
  unfold accessor? events
  cases b.pattern with
  | destructured text => rfl
  | identifier name =>
    cases b.declaredType with
    | none => dsimp only; split <;> rfl
    | some type => dsimp only; split <;> rfl

/-- Each binding of a property has an accessor or leaves an event. -/
theorem Property.length_accessors_add_length_events (p : Property) :
    p.accessors.length + (p.bindings.flatMap Binding.events).length = p.bindings.length := by
  unfold accessors
  induction p.bindings with
  | nil => rfl
  | cons b bs ih =>
    have hb := b.length_accessor?_add_length_events p
    rw [List.filterMap_cons, List.flatMap_cons, List.length_append, List.length_cons]
    cases haccessor : b.accessor? p with
    | none =>
      rw [haccessor, Option.toList_none, List.length_nil] at hb
      dsimp only
      omega
    | some a =>
      rw [haccessor, Option.toList_some, List.length_singleton] at hb
      rw [List.length_cons]
      omega

/-- A method has an accessor or leaves an event. -/
theorem Method.length_accessor?_add_length_events (m : Method) :
    m.accessor?.toList.length + (Declaration.method m).events.length = 1 := by
  unfold accessor?
  show _ + (if Naming.isIdentifier m.name then Forwarding.events m.name m.parameters
    else [.operator m.name]).length = 1
  cases Naming.isIdentifier m.name with
  | false => rfl
  | true =>
    rw [if_pos rfl, Forwarding.length_events, Bool.true_and]
    split
    · rfl
    · rfl

/-- An initializer has an accessor or leaves an event. -/
theorem Initializer.length_accessor?_add_length_events (i : Initializer) :
    i.accessor?.toList.length + (Declaration.initializer i).events.length = 1 := by
  unfold accessor?
  show _ + (Forwarding.events "init" i.parameters).length = 1
  rw [Forwarding.length_events]
  split
  · rfl
  · rfl

/-- How many accessors a declaration can have: one for each binding of a
property, and one for anything else. -/
def Declaration.capacity : Declaration → Nat
  | .property p => p.bindings.length
  | _ => 1

/-- **Nothing is passed over in silence**: of the accessors that a declaration
can have, each is made, or its lack is recorded. -/
theorem Declaration.length_accessorKinds_add_length_events (d : Declaration) :
    d.accessorKinds.length + d.events.length = d.capacity := by
  cases d with
  | property p =>
    show (p.accessors.map _).length + _ = p.bindings.length
    rw [List.length_map]
    exact p.length_accessors_add_length_events
  | method m =>
    show (m.accessor?.toList.map _).length + _ = 1
    rw [List.length_map]
    exact m.length_accessor?_add_length_events
  | initializer i =>
    show (i.accessor?.toList.map _).length + _ = 1
    rw [List.length_map]
    exact i.length_accessor?_add_length_events
  | unrecognized kind => rfl

end TestAccess
