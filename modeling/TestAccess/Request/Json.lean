import TestAccess.Request
import TestAccess.Declaration.Json

/-!
# Requests and diagnostics in JSON
-/

namespace TestAccess

namespace Span

/-- A span is written with its lines in front of its bytes. -/
def toJson (s : Span) : Json :=
  .object [("start_line", .nat s.startLine), ("end_line", .nat s.endLine),
    ("start_byte", .nat s.startByte), ("end_byte", .nat s.endByte)]

/-- A span is read; lines and bytes have bounds of their own. -/
def ofJson? (j : Json) : Option Span := do
  let r ← j.record? ["start_line", "end_line", "start_byte", "end_byte"]
  let startLine ← r.required "start_line" Json.line?
  let endLine ← r.required "end_line" Json.line?
  let startByte ← r.required "start_byte" Json.size?
  let endByte ← r.required "end_byte" Json.size?
  return { startLine, endLine, startByte, endByte }

end Span

namespace Anchor

/-- An anchor is written with all of its fields. -/
def toJson (a : Anchor) : Json :=
  .object [("description", .text a.description), ("span", .option Span.toJson a.span)]

/-- An anchor is read; it need not have a span. -/
def ofJson? (j : Json) : Option Anchor := do
  let r ← j.record? ["description", "span"]
  let description ← r.required "description" Json.text?
  let span ← r.optional "span" Span.ofJson?
  return { description, span }

end Anchor

namespace EnclosingType

/-- An enclosing type is written by its keyword, name and finality. -/
def toJson (t : EnclosingType) : Json :=
  .object [("kind", .text t.keyword.text), ("name", .option .text t.name),
    ("is_final", .bool t.isFinal)]

/-- An enclosing type is read; it is not final where nothing is said. -/
def ofJson? (j : Json) : Option EnclosingType := do
  let r ← j.record? ["kind", "name", "is_final"]
  let keyword ← r.required "kind" (Json.choice? TypeKeyword.table)
  let name ← r.optional "name" Json.text?
  let isFinal ← r.defaulted "is_final" Json.bool? false
  return { keyword, name, isFinal }

end EnclosingType

namespace Request

/-- **A request is written** with all of its fields. -/
def toJson (q : Request) : Json :=
  .object [("declaration", q.declaration.toJson), ("attributes", .texts q.attributes),
    ("anchor", q.anchor.toJson), ("enclosing", .option EnclosingType.toJson q.enclosing)]

/-- **A request is read** with its attributes and its enclosing type
optional. -/
def ofJson? (j : Json) : Option Request := do
  let r ← j.record? ["declaration", "attributes", "anchor", "enclosing"]
  let declaration ← r.required "declaration" Declaration.ofJson?
  let attributes ← r.defaulted "attributes" Json.texts? []
  let anchor ← r.required "anchor" Anchor.ofJson?
  let enclosing ← r.defaulted "enclosing" (Json.option? EnclosingType.ofJson?) none
  return { declaration, attributes, anchor, enclosing }

end Request

namespace Diagnostic

/-- A diagnostic is written with all of its fields. -/
def toJson (d : Diagnostic) : Json :=
  .object [("severity", .text d.severity.text), ("message", .text d.message),
    ("anchor", d.anchor.toJson)]

/-- A diagnostic is read; all of its fields must be there. -/
def ofJson? (j : Json) : Option Diagnostic := do
  let r ← j.record? ["severity", "message", "anchor"]
  let severity ← r.required "severity" (Json.choice? [("error", Severity.error)])
  let message ← r.required "message" Json.text?
  let anchor ← r.required "anchor" Anchor.ofJson?
  return { severity, message, anchor }

end Diagnostic

end TestAccess
