import TestAccess.Config
import TestAccess.Json.Record

/-!
# Configurations in JSON

A configuration is written with all of its settings, and read with any of
them left out.
-/

namespace TestAccess

/-! ## Choices -/

/-- The policies and their names. -/
def InitPolicy.names : List (String × InitPolicy) :=
  [("permissive", .permissive), ("strict", .strict)]

/-- The name of a policy. -/
def InitPolicy.name : InitPolicy → String
  | .permissive => "permissive"
  | .strict => "strict"

/-- Reads a policy. -/
def InitPolicy.ofJson? : Json → Option InitPolicy := Json.choice? InitPolicy.names

/-- The layouts and their names. -/
def Layout.names : List (String × Layout) := [("expanded", .expanded), ("compact", .compact)]

/-- The name of a layout. -/
def Layout.name : Layout → String
  | .expanded => "expanded"
  | .compact => "compact"

/-- Reads a layout. -/
def Layout.ofJson? : Json → Option Layout := Json.choice? Layout.names

/-- A policy is found under its name. -/
@[simp] theorem InitPolicy.lookup_name (p : InitPolicy) : InitPolicy.names.lookup p.name = some p := by
  cases p <;> rfl

/-- A layout is found under its name. -/
@[simp] theorem Layout.lookup_name (l : Layout) : Layout.names.lookup l.name = some l := by
  cases l <;> rfl

/-! ## Sections -/

namespace ExpansionSettings

/-- Writes the section. -/
def toJson (s : ExpansionSettings) : Json :=
  .object [("annotation", .text s.marker), ("init_policy", .text s.initPolicy.name),
    ("strip_annotation", .bool s.stripsMarker)]

/-- Reads the section. -/
def ofJson? (j : Json) : Option ExpansionSettings := do
  let r ← j.record? ["annotation", "init_policy", "strip_annotation"]
  let marker ← r.defaulted "annotation" Json.text? "VisibleForTesting"
  let initPolicy ← r.defaulted "init_policy" InitPolicy.ofJson? .permissive
  let stripsMarker ← r.defaulted "strip_annotation" Json.bool? true
  return { marker, initPolicy, stripsMarker }

end ExpansionSettings

namespace Rendering

/-- Writes the section. -/
def toJson (r : Rendering) : Json :=
  .object [("layout", .text r.layout.name), ("indent_width", .nat r.indentWidth)]

/-- Reads the section. -/
def ofJson? (j : Json) : Option Rendering := do
  let r ← j.record? ["layout", "indent_width"]
  let layout ← r.defaulted "layout" Layout.ofJson? .expanded
  let indentWidth ← r.defaulted "indent_width" Json.size? 4
  return { layout, indentWidth }

end Rendering

namespace Config

/-- Writes a configuration. -/
def toJson (c : Config) : Json :=
  .object [("expansion", c.expansion.toJson), ("render", c.rendering.toJson)]

/-- Reads a configuration. -/
def ofJson? (j : Json) : Option Config := do
  let r ← j.record? ["expansion", "render"]
  let expansion ← r.defaulted "expansion" ExpansionSettings.ofJson? {}
  let rendering ← r.defaulted "render" Rendering.ofJson? {}
  return { expansion, rendering }

end Config

end TestAccess
