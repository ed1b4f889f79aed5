import TestAccess.Json

/-!
# Records and variants in JSON

A record is written as an object with all of its fields. It is read more
liberally: from an object in which other members are ignored and fields that
have a default may be left out, or from an array that lists the fields in
order of declaration. A choice between alternatives is written as the name of
the alternative, or as an object whose single member is the name with the
contents.

Both forms of a record become a `Record`, the list of the fields that are
there, and the readers of single fields do not care which form it was – with
one exception: an optional field may be left out of an object, but an array
has no way to leave a field out except at its end, and there only a default
allows it.
-/

namespace TestAccess.Json

/-- **The fields of a record that are present.** -/
structure Record where
  /-- The fields, by name. -/
  members : List (String × Json)
  /-- Whether fields were named, so that an optional one may be missing. -/
  named : Bool

namespace Record

/-- The value of a field, if it is present. -/
def get? (r : Record) (name : String) : Option Json := r.members.lookup name

/-- A field that must be present. -/
def required {α : Type} (r : Record) (name : String) (decode : Json → Option α) : Option α :=
  (r.get? name).bind decode

/-- A field that may be `null`, or missing where fields are named. -/
def optional {α : Type} (r : Record) (name : String) (decode : Json → Option α) :
    Option (Option α) :=
  match r.get? name with
  | some j => option? decode j
  | none => if r.named then some none else none

/-- A field with a default for when it is missing. -/
def defaulted {α : Type} (r : Record) (name : String) (decode : Json → Option α) (fallback : α) :
    Option α :=
  match r.get? name with
  | some j => decode j
  | none => some fallback

end Record

/-- **The fields of a value read as a record** with the given field names: an
object as it is, an array by position. -/
def record? (names : List String) : Json → Option Record
  | .object members => some ⟨members, true⟩
  | .array items => if items.length ≤ names.length then some ⟨names.zip items, false⟩ else none
  | _ => none

/-! ## Choices -/

/-- **A choice read from a value**: the name of the alternative and, where the
object form is used, its contents. -/
def variant? : Json → Option (String × Option Json)
  | .text name => some (name, none)
  | .object [(name, contents)] => some (name, some contents)
  | _ => none

/-- Whether the contents of an alternative are those of one without contents. -/
def isBare : Option Json → Bool
  | none => true
  | some .null => true
  | some _ => false

/-- A choice among alternatives without contents, given by their names. -/
def choice? {α : Type} (alternatives : List (String × α)) (j : Json) : Option α :=
  match variant? j with
  | some (name, contents) => if isBare contents then alternatives.lookup name else none
  | none => none

/-! ## Values that name their shape

A value of one of several shapes names its shape next to its fields: under a
member of its own in an object, or in front of the fields in an array. Inside
such a value an alternative without contents has a third form, with an empty
object in the place of its contents. -/

mutual

/-- Brings the third form of a bare alternative to the second one. No record
has its only field to lose by this: where a record has a single member, it is
an alternative or lacks a field. -/
def loosen : Json → Json
  | .array items => .array (loosenAll items)
  | .object [(name, .object [])] => .object [(name, .null)]
  | .object members => .object (loosenMembers members)
  | j => j

/-- Loosens the items of an array. -/
def loosenAll : List Json → List Json
  | [] => []
  | j :: items => loosen j :: loosenAll items

/-- Loosens the members of an object. -/
def loosenMembers : List (String × Json) → List (String × Json)
  | [] => []
  | (name, j) :: members => (name, loosen j) :: loosenMembers members

end

/-- **A value that names its shape**, with the fields as a value of their
own. -/
def shaped? (tag : String) : Json → Option (String × Json)
  | .object members => do
    let shape ← (members.lookup tag).bind text?
    return (shape, loosen (.object members))
  | .array (.text shape :: items) => some (shape, loosen (.array items))
  | _ => none

end TestAccess.Json
