import Shading.Script.Path

/-!
# Files

The files that a session can see, below one directory.  A file has bytes and a time of
modification.  A path is followed part by part: every part but the last has to be a directory that
is there, also when the next part goes up again.
-/

namespace Shading

/-- A file. -/
structure StoredFile where
  bytes : ByteArray
  /-- When it was modified, in nanoseconds. -/
  modified : UInt64

/-- Where a file is: the names of the directories from the outside in, and its own. -/
abbrev Location : Type := List (List Char)

/-- Why a file cannot be read. -/
inductive ReadError where
  | missing
  | notText
  deriving DecidableEq, Repr

def ReadError.message : ReadError → String
  | missing => "No such file or directory (os error 2)"
  | notText => "stream did not contain valid UTF-8"

/-- The files below a directory. -/
structure FileStore where
  files : List (Location × StoredFile) := []
  directories : List Location := []

namespace FileStore

/-- Follows the parts of a path from a directory. -/
def follow (s : FileStore) : Location → List (List Char) → Option Location
  | _, [] => none
  | here, [name] => if Path.isSilent name || name == ['.', '.'] then none else some (here ++ [name])
  | here, part :: rest =>
    if Path.isSilent part then s.follow here rest
    else if part == ['.', '.'] then if here.isEmpty then none else s.follow here.dropLast rest
    else if s.directories.contains (here ++ [part]) then s.follow (here ++ [part]) rest
    else none

/-- Where a path leads. -/
def locate? (s : FileStore) (path : String) : Option Location :=
  if Path.isAbsolute path.toList then none else s.follow [] (Path.parts path.toList)

def get? (s : FileStore) (path : String) : Option StoredFile :=
  (s.locate? path).bind fun l => s.files.lookup l

/-- When the file was modified; zero if it is missing. -/
def modified (s : FileStore) (path : String) : UInt64 := ((s.get? path).map (·.modified)).getD 0

def read (s : FileStore) (path : String) : Except ReadError String :=
  match s.get? path with
  | none => .error .missing
  | some file =>
    match String.fromUTF8? file.bytes with
    | some text => .ok text
    | none => .error .notText

/-- The directories on the way to a file. -/
def above (l : Location) : List Location := (List.range l.length).tail.map l.take

/-- The files with the directories on the way to a path. -/
def makeDirectories (s : FileStore) (path : String) : FileStore :=
  let names := (Path.parts path.toList).filter fun p => !Path.isSilent p
  { s with directories := (above names).foldl (fun ds d => ds.insert d) s.directories }

/-- Puts a file at the end of a path.  Nothing happens if the path leads nowhere. -/
def write (s : FileStore) (path : String) (file : StoredFile) : FileStore :=
  match s.locate? path with
  | none => s
  | some l => { s with files := (l, file) :: s.files.filter fun f => f.1 != l }

def remove (s : FileStore) (path : String) : FileStore :=
  match s.locate? path with
  | none => s
  | some l => { s with files := s.files.filter fun f => f.1 != l }

end FileStore

end Shading
