import TestAccess.Path

/-!
# Files and directories

What a command needs of the files is one function: from a path to the text of
the file, or to the reason why there is none. A listing is a directory that
is known in full – the files in it by their paths, with their bytes – and
gives such a function.

A path is followed from the directory, component by component. A component
must name a directory unless it is the last; a file with anything behind it,
be it only a slash, is not a directory. A path that leaves the directory
leads to nothing that is known.
-/

namespace TestAccess

/-- **Why a file cannot be read.** -/
inductive ReadError where
  | notFound
  | notDirectory
  | isDirectory
  /-- The bytes of the file are not those of a text. -/
  | notText
  | other (message : String)
deriving DecidableEq, Repr

/-- The message of a failure. -/
def ReadError.message : ReadError → String
  | .notFound => "No such file or directory (os error 2)"
  | .notDirectory => "Not a directory (os error 20)"
  | .isDirectory => "Is a directory (os error 21)"
  | .notText => "stream did not contain valid UTF-8"
  | .other message => message

/-- **The files**: the text under each path. -/
abbrev Files := String → Except ReadError String

/-- A file of a listing. -/
structure ListedFile where
  components : List (List Char)
  bytes : ByteArray

/-- **A directory that is known in full.** -/
structure Listing where
  files : List ListedFile

namespace Listing

/-- The listing of files given by their paths. -/
def ofPaths (files : List (String × ByteArray)) : Listing :=
  ⟨files.map fun (path, bytes) => ⟨Path.components path.toList, bytes⟩⟩

/-- The bytes of the file at a place. -/
def file? (l : Listing) (place : List (List Char)) : Option ByteArray :=
  (l.files.find? fun f => f.components == place).map ListedFile.bytes

/-- Whether there is a directory at a place. -/
def hasDirectory (l : Listing) (place : List (List Char)) : Bool :=
  place.isEmpty || l.files.any fun f => place.isPrefixOf f.components && f.components != place

/-- **Follows a path** from a place to the bytes of a file. -/
def follow (l : Listing) (place : List (List Char)) :
    (path : List (List Char)) → Except ReadError ByteArray
  | [] => .error .isDirectory
  | name :: path =>
    if name = [] || name = ['.'] then l.follow place path
    else if name = ['.', '.'] then
      if place.isEmpty then .error .notFound else l.follow place.dropLast path
    else
      let next := place ++ [name]
      match l.file? next with
      | some bytes => if path.isEmpty then .ok bytes else .error .notDirectory
      | none => if l.hasDirectory next then l.follow next path else .error .notFound

/-- The text of bytes. -/
def textOf (bytes : ByteArray) : Except ReadError String :=
  match String.fromUTF8? bytes with
  | some text => .ok text
  | none => .error .notText

/-- **The files of a listing.** A path from the root is not followed. -/
def toFiles (l : Listing) : Files := fun path =>
  let cs := path.toList
  if cs.isEmpty || cs.head? == some '/' then .error .notFound
  else (l.follow [] (Chars.pieces (· == '/') cs)).bind textOf

end Listing

end TestAccess
