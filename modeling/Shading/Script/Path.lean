import Shading.Text.Blank

/-!
# Paths

A path is text whose parts stand between slashes.  Empty parts and dots say nothing, except a dot
at the very start; two dots go up.  The *file name* is the last part that says something, and its
*extension* is what follows its last point, unless that point is the first character.
-/

namespace Shading.Path

open Text

/-- The text between slashes. -/
def parts (path : List Char) : List (List Char) := pieces (· == '/') path

/-- Whether a part says nothing. -/
def isSilent (part : List Char) : Bool := part.isEmpty || part == ['.']

/-- Whether the path starts at the root. -/
def isAbsolute (path : List Char) : Bool := path.head? == some '/'

/-- The parts without those that say nothing at the end. -/
def spokenParts (path : List Char) : List (List Char) :=
  ((parts path).reverse.dropWhile isSilent).reverse

/-- The name of the file, if the path ends in one. -/
def fileName? (path : List Char) : Option (List Char) :=
  (spokenParts path).getLast?.filter fun name => name != ['.', '.']

/-- A file name cut at its last point, unless there is nothing before that. -/
def splitName? (name : List Char) : Option (List Char × List Char) :=
  match splitOnce '.' name.reverse with
  | some (extension, stem) =>
    if stem.isEmpty then none else some (stem.reverse, extension.reverse)
  | none => none

/-- The extension of the file name. -/
def extension? (path : List Char) : Option (List Char) :=
  ((fileName? path).bind splitName?).map Prod.snd

/-- The path with another extension; it stays as it is if there is no file name. -/
def withExtension (path extension : List Char) : List Char :=
  match fileName? path with
  | none => path
  | some name =>
    let stem := ((splitName? name).map Prod.fst).getD name
    List.intercalate ['/'] ((spokenParts path).dropLast ++ [stem ++ '.' :: extension])

/-- The number of parts that count, a dot at the start among them. -/
def depth (path : List Char) : Nat :=
  let heard := ((parts path).filter fun p => !isSilent p).length
  if (parts path).head? == some ['.'] then heard + 1 else heard

/-- Whether the path is a single name, without a directory. -/
def isBare (path : List Char) : Bool := !isAbsolute path && depth path == 1

/-- A path seen from a directory. -/
def join (directory path : List Char) : List Char :=
  if isAbsolute path || directory.isEmpty then path
  else if directory.getLast? == some '/' then directory ++ path
  else directory ++ '/' :: path

end Shading.Path
