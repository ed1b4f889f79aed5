import TestAccess.Expansion
import TestAccess.Rendering

/-!
# Configuration

A configuration has two sections, one for the expansion and one for the
rendering. Every setting has a default, and two of them have a range that
their type does not express: the annotation must be the name of something,
and the width of the indentation must be sensible. A configuration is checked
once, after it has been put together, and only settings that passed are ever
used.

The annotation may be written with or without its sign. It is kept as it was
written, and `markerName` is the name without the sign.
-/

namespace TestAccess

/-- **The settings of the expansion.** -/
structure ExpansionSettings where
  /-- The annotation to look for, as it was written. -/
  marker : String := "VisibleForTesting"
  initPolicy : InitPolicy := .permissive
  /-- Whether the annotation is taken out of the source. -/
  stripsMarker : Bool := true
deriving DecidableEq, Repr

/-- **A configuration.** -/
structure Config where
  expansion : ExpansionSettings := {}
  rendering : Rendering := {}
deriving DecidableEq, Repr

/-- The annotation without its signs. -/
def ExpansionSettings.markerName (s : ExpansionSettings) : String :=
  String.ofList (s.marker.toList.dropWhile (· == '@'))

namespace Config

/-- The name of the annotation to look for. -/
def markerName (c : Config) : String := c.expansion.markerName

/-- The options that the expansion of a single request needs. -/
def options (c : Config) : ExpansionOptions :=
  { marker := c.markerName, initPolicy := c.expansion.initPolicy }

/-! ## Ranges -/

/-- The least and the greatest width of an indentation. -/
def indentWidths : Nat × Nat := (1, 16)

/-- **A setting that is out of range.** -/
inductive RangeError where
  | marker (text : String)
  | indentWidth (width : Nat)
deriving DecidableEq, Repr

/-- The message for a setting that is out of range. -/
def RangeError.message : RangeError → String
  | .marker text =>
    "Invalid configuration value for 'expansion.annotation': '" ++ text ++
      "' is not a Swift identifier"
  | .indentWidth width =>
    "Invalid configuration value for 'render.indent_width': " ++ toString width ++
      " is outside " ++ toString indentWidths.1 ++ "..=" ++ toString indentWidths.2

/-- **Checks the ranges**: the annotation first, then the indentation. -/
def validate (c : Config) : Except RangeError Config :=
  if !Naming.isIdentifier c.markerName then .error (.marker c.expansion.marker)
  else if c.rendering.indentWidth < indentWidths.1 || indentWidths.2 < c.rendering.indentWidth then
    .error (.indentWidth c.rendering.indentWidth)
  else .ok c

end Config

/-! ## Changes for one run -/

/-- **What one run changes** about the configuration. A change can be asked
for, but a setting cannot be turned back. -/
structure Overrides where
  compact : Bool := false
  strictInit : Bool := false
  keepsMarker : Bool := false
deriving DecidableEq, Repr

/-- The configuration with the changes of a run. -/
def Config.overriddenBy (c : Config) (o : Overrides) : Config :=
  { expansion :=
      { c.expansion with
        initPolicy := if o.strictInit then .strict else c.expansion.initPolicy
        stripsMarker := c.expansion.stripsMarker && !o.keepsMarker }
    rendering :=
      { c.rendering with layout := if o.compact then .compact else c.rendering.layout } }

/-- Without changes the configuration stays as it is. -/
@[simp] theorem Config.overriddenBy_default (c : Config) : c.overriddenBy {} = c := by
  simp [Config.overriddenBy]

end TestAccess
