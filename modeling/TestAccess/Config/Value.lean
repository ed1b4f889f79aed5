import TestAccess.Text.Split

/-!
# Values of settings

Before a configuration is a configuration it is a value: what a file or a
variable says, with nothing known yet about what may be said. Values of
several layers are laid over each other. Tables are laid over each other
member by member; anything else simply replaces what is below it, whatever
that is. Since the upper value always wins where both say something, a value
that is masked never has to make sense.
-/

namespace TestAccess

/-- **A value of a setting.** -/
inductive Value where
  | text (s : String)
  /-- A single character written as such. -/
  | character (c : Char)
  | bool (b : Bool)
  | integer (n : Int)
  /-- A number with a point or an exponent, as it was written. -/
  | float (written : String)
  | array (items : List Value)
  | table (members : List (String × Value))

namespace Value

/-- The members of a table. -/
abbrev Members := List (String × Value)

/-- Puts a member into a table, in place of the member of that name if there
is one. -/
def put {α : Type} (name : String) (v : α) : List (String × α) → List (String × α)
  | [] => [(name, v)]
  | (n, u) :: members => if n = name then (name, v) :: members else (n, u) :: put name v members

/-- The member that was put in is found. -/
@[simp] theorem lookup_put_self {α : Type} (name : String) (v : α) (members : List (String × α)) :
    (put name v members).lookup name = some v := by
  induction members with
  | nil => simp [put]
  | cons m members ih =>
    obtain ⟨n, u⟩ := m
    by_cases h : n = name
    · simp [put, h]
    · have h' : (name == n) = false := by simpa using fun e => h e.symm
      simp [put, h, List.lookup_cons, h', ih]

/-- Other members stay as they are. -/
theorem lookup_put_of_ne {α : Type} {name other : String} (h : other ≠ name) (v : α)
    (members : List (String × α)) :
    (put name v members).lookup other = members.lookup other := by
  have h' : (other == name) = false := by simpa using h
  induction members with
  | nil => simp [put, List.lookup_cons, h']
  | cons m members ih =>
    obtain ⟨n, u⟩ := m
    by_cases hn : n = name
    · simp [put, hn, List.lookup_cons, h']
    · simp only [put, hn, if_false, List.lookup_cons, ih]

mutual

/-- **A value laid over another.** -/
def overlay : (upper lower : Value) → Value
  | .table above, .table below => .table (overlayMembers above below)
  | .table above, _ => .table above
  | .text s, _ => .text s
  | .character c, _ => .character c
  | .bool b, _ => .bool b
  | .integer n, _ => .integer n
  | .float w, _ => .float w
  | .array items, _ => .array items

/-- The members of a table laid over those of another. -/
def overlayMembers : (upper lower : List (String × Value)) → List (String × Value)
  | [], lower => lower
  | (name, v) :: upper, lower =>
    let merged :=
      match lower.lookup name with
      | some u => overlay v u
      | none => v
    overlayMembers upper (put name merged lower)

end

/-- A value under a path of names: tables with a single member each. -/
def nest : (path : List String) → Value → Value
  | [], v => v
  | name :: path, v => .table [(name, nest path v)]

/-- The least name among the members of a table. -/
def leastName? : Members → Option String
  | [] => none
  | (name, _) :: members =>
    match leastName? members with
    | some other => some (if other < name then other else name)
    | none => some name

end Value

end TestAccess
