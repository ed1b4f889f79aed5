/-!
# JSON values

Requests, accessors and reports travel as JSON. A value is kept in the form in
which it was written as far as meaning needs it: members of an object stay in
order, and a number is a mantissa with a count of decimal places, so that `1`
and `1.0` remain two different things – only the first is an integer.

Reading a domain type from a value is a partial function into `Option`: the
program answers *that* a value does not fit, never why.
-/

namespace TestAccess

/-- **A JSON value.** -/
inductive Json where
  | null
  | bool (value : Bool)
  /-- The number `mantissa / 10 ^ places`. -/
  | number (mantissa : Int) (places : Nat)
  | text (value : String)
  | array (items : List Json)
  | object (members : List (String × Json))
deriving Inhabited

namespace Json

/-- A natural number. -/
def nat (n : Nat) : Json := .number n 0

/-- A value that may be absent. -/
def option {α : Type} (encode : α → Json) : Option α → Json
  | none => .null
  | some a => encode a

/-- A list of values. -/
def list {α : Type} (encode : α → Json) (items : List α) : Json := .array (items.map encode)

/-- A list of texts. -/
def texts (items : List String) : Json := list .text items

/-! ## Reading the basic types -/

/-- A text. -/
def text? : Json → Option String
  | .text s => some s
  | _ => none

/-- A truth value. -/
def bool? : Json → Option Bool
  | .bool b => some b
  | _ => none

/-- **An integer of a fixed width**: written without decimal places, not
negative, and below the bound. -/
def natBelow? (bound : Nat) : Json → Option Nat
  | .number (.ofNat n) 0 => if n < bound then some n else none
  | _ => none

/-- An offset or a size, which fits in 64 bits. -/
def size? : Json → Option Nat := natBelow? UInt64.size

/-- A line number, which fits in 32 bits. -/
def line? : Json → Option Nat := natBelow? UInt32.size

/-- A value that may be absent, absence being `null`. -/
def option? {α : Type} (decode : Json → Option α) : Json → Option (Option α)
  | .null => some none
  | j => (decode j).map some

/-- A list of values, all of which must be readable. -/
def list? {α : Type} (decode : Json → Option α) : Json → Option (List α)
  | .array items => items.mapM decode
  | _ => none

/-- A list of texts. -/
def texts? : Json → Option (List String) := list? text?

@[simp] theorem text?_text (s : String) : text? (.text s) = some s := rfl

@[simp] theorem bool?_bool (b : Bool) : bool? (.bool b) = some b := rfl

/-- A number below the bound is read back. -/
@[simp] theorem natBelow?_nat {bound n : Nat} (h : n < bound) :
    natBelow? bound (nat n) = some n := by
  show (if n < bound then some n else none) = some n
  simp [h]

/-- **A list is read back** when each of its members is. -/
theorem list?_list {α : Type} {encode : α → Json} {decode : Json → Option α} {items : List α}
    (h : ∀ a ∈ items, decode (encode a) = some a) :
    list? decode (list encode items) = some items := by
  simp only [list?, list]
  induction items with
  | nil => rfl
  | cons a items ih =>
    have ha := h a (by simp)
    have hs := ih fun b hb => h b (by simp [hb])
    simp [List.mapM_cons, ha, hs]

/-- A list of texts is read back. -/
@[simp] theorem texts?_texts (items : List String) : texts? (texts items) = some items :=
  list?_list fun _ _ => rfl

end Json

end TestAccess
