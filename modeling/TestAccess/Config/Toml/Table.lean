import TestAccess.Config.Value

/-!
# Building the tables of a TOML document

A TOML document names its tables in three ways: by a header, by a longer
header that passes through them, and by a dotted key that passes through
them. A table may be named many times in passing but defined only once, and
the two ways of passing must not be mixed with a definition. So each table
remembers where it comes from while the document is read, and each statement
says how it goes through the tables on its way.

The rules are all in `Table.update`, which goes down a path of names, and in
the three operations that change the table at its end.
-/

namespace TestAccess.Toml

/-- How a table came to be. -/
inductive Origin where
  /-- It has a header of its own, or braces. -/
  | defined
  /-- A longer header passes through it. -/
  | passed
  /-- A dotted key passes through it. -/
  | dotted
deriving DecidableEq, Repr

/-- **A member of a table while the document is read.** -/
inductive Entry where
  | value (v : Value)
  | table (origin : Origin) (members : List (String × Entry))
  /-- Tables under a repeated header: the last one, and those before it, the
  last of them first. -/
  | tables (last : List (String × Entry)) (before : List (List (String × Entry)))

/-- **A table while the document is read.** -/
structure Table where
  origin : Origin
  members : List (String × Entry)

namespace Table

/-- The table that a document begins with. -/
def empty : Table := ⟨.defined, []⟩

/-- The member of a name. -/
def get? (t : Table) (name : String) : Option Entry := t.members.lookup name

/-- Puts a member into a table. -/
def put (t : Table) (name : String) (e : Entry) : Table :=
  { t with members := Value.put name e t.members }

/-- **Changes the table at the end of a path.** A table that is missing on
the way is made, and comes to be in the given way. A value on the way bars
it, and a dotted key may not pass through a table that has been defined. -/
def update (via : Origin) (change : Table → Option Table) : List String → Table → Option Table
  | [], t => change t
  | name :: path, t =>
    match t.get? name with
    | none => do
      let inner ← update via change path ⟨via, []⟩
      return t.put name (.table inner.origin inner.members)
    | some (.value _) => none
    | some (.tables last before) => do
      let inner ← update via change path ⟨.defined, last⟩
      return t.put name (.tables inner.members before)
    | some (.table origin members) =>
      if via = .dotted && origin = .defined then none
      else do
        let inner ← update via change path ⟨origin, members⟩
        return t.put name (.table inner.origin inner.members)

/-- **A value under a dotted key.** The key must be new, and if it has more
than one part, the table it ends in must belong to dotted keys. -/
def assign (path : List String) (name : String) (v : Value) (t : Table) : Option Table :=
  t.update .dotted (addTo (path.isEmpty)) path
where
  /-- Adds the value to the table at the end of the path. -/
  addTo (isDirect : Bool) (inner : Table) : Option Table :=
    if isDirect = (inner.origin = .dotted) then none
    else
      match inner.get? name with
      | none => some (inner.put name (.value v))
      | some _ => none

/-- **A header** defines a table that is new or has been passed through. -/
def define (path : List String) (name : String) (t : Table) : Option Table :=
  t.update .passed defineIn path
where
  /-- Defines the table among the members of the one at the end of the
  path. -/
  defineIn (inner : Table) : Option Table :=
    match inner.get? name with
    | none => some (inner.put name (.table .defined []))
    | some (.table .passed members) => some (inner.put name (.table .defined members))
    | some _ => none

/-- **A repeated header** adds a table to those under it. -/
def append (path : List String) (name : String) (t : Table) : Option Table :=
  t.update .passed appendIn path
where
  /-- Adds a table to those in the one at the end of the path. -/
  appendIn (inner : Table) : Option Table :=
    match inner.get? name with
    | none => some (inner.put name (.tables [] []))
    | some (.tables last before) => some (inner.put name (.tables [] (last :: before)))
    | some _ => none

end Table

/-! ## From tables to values -/

mutual

/-- The value of a member. -/
def Entry.toValue : Entry → Value
  | .value v => v
  | .table _ members => .table (membersToValue members)
  | .tables last before =>
    .array ((tablesToValue before).reverse ++ [.table (membersToValue last)])

/-- The values of the members of a table. -/
def membersToValue : List (String × Entry) → List (String × Value)
  | [] => []
  | (name, e) :: members => (name, e.toValue) :: membersToValue members

/-- The values of several tables. -/
def tablesToValue : List (List (String × Entry)) → List Value
  | [] => []
  | members :: tables => .table (membersToValue members) :: tablesToValue tables

end

/-- The members of a table as values. -/
def Table.toMembers (t : Table) : Value.Members := membersToValue t.members

/-! ## Statements -/

/-- **A statement of a document.** -/
inductive Statement where
  | assignment (path : List String) (name : String) (v : Value)
  | header (path : List String) (name : String)
  | repeatedHeader (path : List String) (name : String)

/-- A document that has been read up to a point: its tables, and the path of
the last header. -/
structure Document where
  root : Table := .empty
  current : List String := []

/-- Adds a statement to a document. -/
def Document.add (d : Document) : Statement → Option Document
  | .assignment path name v => do
    let root ← d.root.update .passed (fun t => t.assign path name v) d.current
    return { d with root }
  | .header path name => do
    let root ← d.root.define path name
    return { root, current := path ++ [name] }
  | .repeatedHeader path name => do
    let root ← d.root.append path name
    return { root, current := path ++ [name] }

/-- **The members of a document**, if its statements go together. -/
def document? (statements : List Statement) : Option Value.Members := do
  let d ← statements.foldlM Document.add {}
  return d.root.toMembers

end TestAccess.Toml
