import TestAccess.Config.Dotenv
import TestAccess.Config.Environment
import TestAccess.Config.Json

/-!
# Loading the configuration

The configuration comes from up to three layers: a file of the user, a file
of the project, and the environment. They are laid over each other in this
order, and only the result is read as a configuration, so that a setting is
looked at only in the highest layer that has it. What no layer has takes its
default.

The settings of a section are the members of a table, read in the order of
their names, or the items of an array, read in the order in which the section
lists them. The first one that does not fit is the one that is reported, with
its path. Ranges are checked when everything has been read.
-/

namespace TestAccess

/-! ## Settings from values -/

/-- What is wrong with the value of a setting. -/
inductive Misfit where
  /-- It is of the wrong kind. -/
  | type
  /-- It is of the right kind and outside of what the kind can hold. -/
  | value
  /-- It names no alternative. -/
  | variant
deriving DecidableEq, Repr

/-- **A value that does not fit**, and where it is. -/
structure Mismatch where
  misfit : Misfit
  path : List String
deriving DecidableEq, Repr

/-- Reading a setting. -/
abbrev Fitting := Except Mismatch

namespace Value

/-- A failure at the value itself. -/
def refuse {α : Type} (misfit : Misfit) : Fitting α := .error ⟨misfit, []⟩

/-- A text. -/
def toText : Value → Fitting String
  | .text s => .ok s
  | .character c => .ok (String.singleton c)
  | _ => refuse .type

/-- A truth value. -/
def toBool : Value → Fitting Bool
  | .bool b => .ok b
  | _ => refuse .type

/-- A number that is not negative. -/
def toSize : Value → Fitting Nat
  | .integer n => if n < 0 then refuse .value else .ok n.toNat
  | _ => refuse .type

/-- One of some alternatives, by its name. A table names an alternative by
its first member, but the alternatives have nothing that the member could
hold, so that a table fails at that member in any case. -/
def toChoice {α : Type} (alternatives : List (String × α)) : Value → Fitting α
  | .text s =>
    match alternatives.lookup s with
    | some a => .ok a
    | none => refuse .variant
  | .table members =>
    match leastName? members with
    | none => refuse .type
    | some name =>
      let misfit := if (alternatives.lookup name).isSome then .type else .variant
      .error ⟨misfit, [name]⟩
  | _ => refuse .type

/-- The members of a table. -/
def toMembers : Value → Fitting Members
  | .table members => .ok members
  | _ => refuse .type

/-- **A value read as a setting**, or the default if there is none. A failure
is reported under the name of the setting. -/
def setting {α : Type} (name : String) (value : Option Value) (read : Value → Fitting α)
    (fallback : α) : Fitting α :=
  match value with
  | none => .ok fallback
  | some v =>
    match read v with
    | .ok a => .ok a
    | .error e => .error { e with path := name :: e.path }

/-- A member of a table read as a setting. -/
def member {α : Type} (members : Members) (name : String) (read : Value → Fitting α)
    (fallback : α) : Fitting α :=
  setting name (members.lookup name) read fallback

/-- An item of an array read as a setting. Its name is its index. -/
def item {α : Type} (items : List Value) (index : Nat) (read : Value → Fitting α)
    (fallback : α) : Fitting α :=
  setting (toString index) items[index]? read fallback

end Value

/-- The section of the expansion. -/
def ExpansionSettings.ofValue : Value → Fitting ExpansionSettings
  | .table members => do
    let marker ← Value.member members "annotation" Value.toText "VisibleForTesting"
    let initPolicy ←
      Value.member members "init_policy" (Value.toChoice InitPolicy.names) .permissive
    let stripsMarker ← Value.member members "strip_annotation" Value.toBool true
    return { marker, initPolicy, stripsMarker }
  | .array items => do
    let marker ← Value.item items 0 Value.toText "VisibleForTesting"
    let initPolicy ← Value.item items 1 (Value.toChoice InitPolicy.names) .permissive
    let stripsMarker ← Value.item items 2 Value.toBool true
    return { marker, initPolicy, stripsMarker }
  | _ => Value.refuse .type

/-- The section of the rendering. -/
def Rendering.ofValue : Value → Fitting Rendering
  | .table members => do
    let indentWidth ← Value.member members "indent_width" Value.toSize 4
    let layout ← Value.member members "layout" (Value.toChoice Layout.names) .expanded
    return { layout, indentWidth }
  | .array items => do
    let layout ← Value.item items 0 (Value.toChoice Layout.names) .expanded
    let indentWidth ← Value.item items 1 Value.toSize 4
    return { layout, indentWidth }
  | _ => Value.refuse .type

/-- **A configuration read from a value.** -/
def Config.ofValue (v : Value) : Fitting Config := do
  let members ← v.toMembers
  let expansion ← Value.member members "expansion" ExpansionSettings.ofValue {}
  let rendering ← Value.member members "render" Rendering.ofValue {}
  return { expansion, rendering }

/-! ## Layers -/

/-- **Why a configuration cannot be loaded.** -/
inductive ConfigError where
  /-- A file is not TOML. -/
  | notToml
  | mismatch (m : Mismatch)
  | outOfRange (e : Config.RangeError)
deriving DecidableEq, Repr

/-- What is wrong with a value, in words. -/
def Misfit.message : Misfit → String
  | .type => "wrong type"
  | .value => "wrong value"
  | .variant => "unknown variant"

/-- The place of a mismatch: its path with dots. -/
def Mismatch.place (m : Mismatch) : String := Text.join "." m.path

/-- The message of a failure. -/
def ConfigError.message : ConfigError → String
  | .notToml => "Configuration error: a configuration file is not TOML"
  | .mismatch m => "Configuration error: " ++ m.misfit.message ++ " for '" ++ m.place ++ "'"
  | .outOfRange e => e.message

/-- **Where a configuration comes from.** -/
structure ConfigSources where
  /-- The file of the user, if there is one. -/
  user : Option String := none
  /-- The file of the project, if there is one. -/
  project : Option String := none
  /-- The variables of the environment. -/
  environment : List (String × String) := []

namespace ConfigSources

/-- The sources with the variables of a `.env` file added to the
environment. -/
def withDotenv (s : ConfigSources) (file : String) : ConfigSources :=
  { s with environment := Dotenv.extend s.environment file }

/-- The layer of a file; a file that is not there has an empty one. -/
def fileLayer : Option String → Except ConfigError Value
  | none => .ok (.table [])
  | some text =>
    match Toml.read? text with
    | some members => .ok (.table members)
    | none => .error .notToml

/-- The layers, the lowest first. -/
def layers (s : ConfigSources) : Except ConfigError (List Value) := do
  let user ← fileLayer s.user
  let project ← fileLayer s.project
  return [user, project, Environment.layer s.environment]

end ConfigSources

/-- Layers laid over each other, the lowest first. -/
def Value.stack (layers : List Value) : Value :=
  layers.foldl (fun below above => above.overlay below) (.table [])

/-- **The configuration of some layers**, the lowest first. -/
def Config.ofLayers (layers : List Value) : Except ConfigError Config := do
  let config ← (Config.ofValue (Value.stack layers)).mapError .mismatch
  config.validate.mapError .outOfRange

/-- **Loads a configuration.** -/
def Config.load (s : ConfigSources) : Except ConfigError Config := do
  let layers ← s.layers
  Config.ofLayers layers

end TestAccess
