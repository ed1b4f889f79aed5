import TestAccess.Source.Operator

/-!
# Runs of pieces

A type, an expression or an attribute is a run of pieces, and nothing about it
has to be understood to know how far it reaches. It is read with a small
state: what is expected next. The state and the next piece, with a look at
what follows it, decide whether the run goes on.

How line breaks count depends on where a run stands. Among statements a line
break ends a run unless the next line can only be its continuation. Among the
members of a type it ends nothing by itself, since no member opens with
anything that could continue a run. In brackets it means nothing at all.
-/

namespace TestAccess.Source

/-- **A run of pieces**: as long as `next` gives a new state, the piece
belongs to the run. -/
def takeRun {σ : Type} (next : σ → Piece → List Piece → Option σ) :
    σ → List Piece → List Piece × List Piece
  | _, [] => ([], [])
  | state, p :: ps =>
    match next state p ps with
    | none => ([], p :: ps)
    | some state =>
      let (taken, rest) := takeRun next state ps
      (p :: taken, rest)

/-- A run and what follows it make up the pieces. -/
theorem takeRun_append {σ : Type} (next : σ → Piece → List Piece → Option σ) (state : σ)
    (ps : List Piece) : (takeRun next state ps).1 ++ (takeRun next state ps).2 = ps := by
  induction ps generalizing state with
  | nil => rfl
  | cons p ps ih =>
    simp only [takeRun]
    cases next state p ps with
    | none => rfl
    | some s => simp [ih s]

/-- The range from the first to the last of some pieces. -/
def rangeOf (first : Piece) (others : List Piece) : ByteRange :=
  ⟨first.range.start, (others.getLast?.getD first).range.stop⟩

/-- How line breaks count. -/
inductive LineRule where
  /-- Among statements. -/
  | ending
  /-- Among the members of a type. -/
  | yielding
  /-- In brackets. -/
  | ignored
deriving DecidableEq, Repr

/-- Whether a dot and a name follow. -/
def opensMember (p : Piece) : List Piece → Bool
  | q :: _ => p.isSymbol '.' && q.word?.isSome
  | [] => false

/-! ## Lists in angles -/

/-- One piece of a list in angles: the state is `none` before the list, and
the depth inside it after that. -/
def anglesNext : Option Nat → Piece → List Piece → Option (Option Nat)
  | none, p, _ => if p.isSymbol '<' then some (some 1) else none
  | some 0, _, _ => none
  | some (depth + 1), p, _ =>
    if p.isSymbol '<' then some (some (depth + 2))
    else if p.isSymbol '>' then some (some depth)
    else some (some (depth + 1))

/-- Generic parameters in angles, if they stand at the front. -/
def takeAngles (ps : List Piece) : List Piece × List Piece := takeRun anglesNext none ps

/-- What follows generic arguments, if they can be read up to their closing
angle from inside a depth of angles. -/
def behindAngles? : Nat → List Piece → Option (List Piece)
  | _, [] => none
  | depth, p :: ps =>
    if p.isSymbol '<' then behindAngles? (depth + 1) ps
    else if p.isSymbol '>' then if depth ≤ 1 then some ps else behindAngles? (depth - 1) ps
    else if p.word?.isSome || p.isArrow || p.isFramed .round || p.isFramed .square ||
        p.symbol?.any ",.:?!&~@".toList.contains then behindAngles? depth ps
    else none

/-! ## Attributes -/

/-- What is expected next in an attribute. -/
inductive AttributeState where
  | sign
  | name
  | behindName
  | angles (depth : Nat)
  | finished

/-- One piece of an attribute. -/
def attributeNext : AttributeState → Piece → List Piece → Option AttributeState
  | .sign, p, _ => if p.isSymbol '@' then some .name else none
  | .name, p, _ => if p.word?.isSome then some .behindName else none
  | .behindName, p, ps =>
    if opensMember p ps then some .name
    else if p.isSymbol '.' then some .name
    else if p.isSymbol '<' then some (.angles 1)
    else if p.isFramed .round then some .finished
    else none
  | .angles depth, p, _ =>
    if p.isSymbol '<' then some (.angles (depth + 1))
    else if p.isSymbol '>' then some (if depth ≤ 1 then .behindName else .angles (depth - 1))
    else some (.angles depth)
  | .finished, _, _ => none

/-- The attribute at the front, with its arguments. -/
def takeAttribute (ps : List Piece) : List Piece × List Piece := takeRun attributeNext .sign ps

/-! ## Modifiers -/

/-- Words that modify a declaration. -/
def modifierWords : List String :=
  ["public", "private", "internal", "fileprivate", "open", "package", "static", "final",
    "override", "convenience", "required", "lazy", "weak", "unowned", "dynamic", "optional",
    "mutating", "nonmutating", "nonisolated", "isolated", "distributed", "prefix", "postfix",
    "infix", "consuming", "borrowing", "__consuming", "indirect", "async"]

/-- Whether a parenthesis qualifies the modifier in front of it. -/
def isQualifier (p : Piece) : Bool :=
  p.isFramed .round &&
    match p.parts with
    | [q] => q.isWordIn ["set", "safe", "unsafe", "nonsending"]
    | _ => false

/-- The modifier at the front, with the parenthesis that may qualify it. -/
def takeModifier (p : Piece) (ps : List Piece) : List Piece × List Piece :=
  match ps with
  | q :: rest => if isQualifier q then ([p, q], rest) else ([p], ps)
  | [] => ([p], [])

/-- What follows the attributes and the given modifiers at the front. -/
def skipModifiers (words : List String) : (fuel : Nat) → List Piece → List Piece
  | fuel + 1, p :: ps =>
    if p.isSymbol '@' then skipModifiers words fuel (takeAttribute (p :: ps)).2
    else if p.isWordIn words then skipModifiers words fuel (takeModifier p ps).2
    else p :: ps
  | _, ps => ps

/-- **Whether code in braces watches changes of a stored property**: its first
clause, attributes and modifiers aside, is one of the two that do. -/
def isObserverBlock (parts : List Piece) : Bool :=
  match skipModifiers modifierWords parts.length parts with
  | p :: _ => p.isWordIn ["willSet", "didSet"]
  | [] => false

end TestAccess.Source
