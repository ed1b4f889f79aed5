import TestAccess.Text.Split

/-!
# Paths of source files

A path is a text with slashes in it. Its components are the texts between the
slashes, without the empty ones and without those that stay in place (`.`),
so that a slash or a dot at the end of a path makes no difference. A file is
a Swift source when the extension of its last component is `swift`; a name
that begins with its only dot has no extension.
-/

namespace TestAccess.Path

/-- The components of a path that lead somewhere. -/
def components (path : List Char) : List (List Char) :=
  (Chars.pieces (· == '/') path).filter fun c => c ≠ [] && c ≠ ['.']

/-- The name that a path ends in. A path to the parent directory ends in no
name. -/
def fileName? (path : List Char) : Option (List Char) :=
  (components path).getLast?.filter fun c => c ≠ ['.', '.']

/-- The text behind the last dot of a name that has something in front of
it. -/
def nameExtension? (name : List Char) : Option (List Char) :=
  let ending := Chars.afterLast (· == '.') name
  if ending.length + 1 < name.length then some ending else none

/-- The extension of the file that a path leads to. -/
def extension? (path : List Char) : Option (List Char) := (fileName? path).bind nameExtension?

/-- **Whether a path leads to a Swift source.** -/
def isSwift (path : String) : Bool := extension? path.toList == some "swift".toList

example : isSwift "Sources/App/Model.swift" = true := by decide +kernel
example : isSwift "a.swift/./" = true := by decide +kernel
example : isSwift "swift" = false := by decide +kernel
example : isSwift ".swift" = false := by decide +kernel
example : isSwift "...swift" = true := by decide +kernel
example : isSwift "a.swift/.." = false := by decide +kernel

end TestAccess.Path
