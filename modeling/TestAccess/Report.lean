import TestAccess.Config
import TestAccess.Splice
import TestAccess.Tree.Site

/-!
# Reports on a source

The report on a source says for each of its sites what the site gives: the
names and texts of its accessors, or the diagnostics instead of them. A
report keeps the source and the places of its sites, so that the source with
the accessors spliced in can be made from it.

The trees of sources are not made here. A report is on the sites of a source,
wherever they came from.
-/

namespace TestAccess

/-- **What one site gives.** -/
structure SiteReport where
  site : Site
  /-- The names of the accessors. -/
  accessors : List String
  /-- The texts of the accessors, in the same order. -/
  rendered : List String
  diagnostics : List Diagnostic

namespace SiteReport

/-- The report on a site under a configuration. -/
def ofSite (c : Config) (site : Site) : SiteReport :=
  let e := site.request.expand c.options
  { site, accessors := e.accessors.map Accessor.name,
    rendered := e.accessors.map c.rendering.render, diagnostics := e.diagnostics }

/-- The line on which the site begins. -/
def line (r : SiteReport) : Nat := r.site.line

/-- The shape of the declaration. -/
def shape (r : SiteReport) : String := r.site.request.declaration.shape

/-- The declaration in words. -/
def declaration (r : SiteReport) : String := r.site.request.anchor.description

/-- What the site asks of a splice. -/
def insertion (r : SiteReport) (stripsMarker : Bool) : Insertion :=
  { declaration := r.site.declaration,
    marker := if stripsMarker then some r.site.marker else none,
    indentation := r.site.indentation, rendered := r.rendered }

/-- Writes a report on a site. -/
def toJson (r : SiteReport) : Json :=
  .object [("line", .nat r.line), ("shape", .text r.shape), ("declaration", .text r.declaration),
    ("accessors", .texts r.accessors), ("rendered", .texts r.rendered),
    ("diagnostics", .list Diagnostic.toJson r.diagnostics)]

end SiteReport

/-- **The report on a source.** -/
structure FileReport where
  path : String
  source : String
  sites : List SiteReport

namespace FileReport

/-- **The report on the sites of a source** under a configuration. -/
def ofSites (c : Config) (path source : String) (sites : List Site) : FileReport :=
  { path, source, sites := sites.map (SiteReport.ofSite c) }

/-- The diagnostics of all sites, in order. -/
def diagnostics (r : FileReport) : List Diagnostic := r.sites.flatMap SiteReport.diagnostics

/-- Whether something was reported. -/
def hasErrors (r : FileReport) : Bool := !r.diagnostics.isEmpty

/-- The diagnostics as they are shown, behind the path. -/
def diagnosticLines (r : FileReport) : List String :=
  r.diagnostics.map fun d => r.path ++ ":" ++ d.display

/-- **The source with the accessors spliced in.** -/
def spliced (r : FileReport) (stripsMarker : Bool) : Except SpliceError String :=
  splice r.source (r.sites.map fun s => s.insertion stripsMarker)

/-- Writes a report. -/
def toJson (r : FileReport) : Json :=
  .object [("path", .text r.path), ("sites", .list SiteReport.toJson r.sites)]

end FileReport

end TestAccess
