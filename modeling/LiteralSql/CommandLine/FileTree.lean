import LiteralSql.Text.Utf8

/-! Directories and files by their paths.

A location is the list of names that leads to it from the root. A path is
walked name by name, and each name, also an empty one or a dot, has to be asked
of a directory.
-/

set_option autoImplicit false

namespace LiteralSql

inductive FileError
  | missing
  | permissionDenied
  | notADirectory
  | isADirectory
  | nameTooLong
  | notText
  | other (reason : Text)
  deriving DecidableEq

def FileError.message : FileError → Text
  | .missing => "No such file or directory (os error 2)".toList
  | .permissionDenied => "Permission denied (os error 13)".toList
  | .notADirectory => "Not a directory (os error 20)".toList
  | .isADirectory => "Is a directory (os error 21)".toList
  | .nameTooLong => "File name too long (os error 36)".toList
  | .notText => "stream did not contain valid UTF-8".toList
  | .other reason => reason

abbrev Location := List Text

/-- What there is. A directory on the way to something else need not be listed. -/
structure FileTree where
  workingDirectory : Location
  directories : List Location := []
  files : List (Location × Text) := []

inductive FileEntry
  | directory
  | file (content : Text)
  deriving DecidableEq

namespace FileTree

/-- Directories that hold or are something listed; the root is always one of them. -/
def isDirectory (tree : FileTree) (location : Location) : Bool :=
  let holders := tree.files.map fun (file : Location × Text) => file.1.dropLast
  (tree.workingDirectory :: tree.directories ++ holders).any location.isPrefixOf

def entry? (tree : FileTree) (location : Location) : Option FileEntry :=
  match tree.files.lookup location with
  | some content => some (.file content)
  | none => if tree.isDirectory location then some .directory else none

def step (tree : FileTree) (location : Location) (name : Text) : Except FileError Location :=
  match tree.entry? location with
  | none => .error .missing
  | some (.file _) => .error .notADirectory
  | some .directory =>
    if name = [] ∨ name = ['.'] then .ok location
    else if name = ['.', '.'] then .ok location.dropLast
    else if 255 < (Utf8.encode name).length then .error .nameTooLong
    else .ok (location ++ [name])

def resolve (tree : FileTree) (path : Text) : Except FileError Location :=
  if path.isEmpty then .error .missing
  else if 4096 ≤ (Utf8.encode path).length then .error .nameTooLong
  else
    let start := if path.head? = some '/' then [] else tree.workingDirectory
    (Text.split '/' path).foldlM tree.step start

def read (tree : FileTree) (path : Text) : Except FileError Text := do
  match tree.entry? (← tree.resolve path) with
  | none => .error .missing
  | some .directory => .error .isADirectory
  | some (.file content) => .ok content

/-- Puts a file into the working directory, or below it if its name has slashes. -/
def addFile (tree : FileTree) (name content : Text) : FileTree :=
  let location := tree.workingDirectory ++ (Text.split '/' name).filter fun part => !part.isEmpty
  { tree with files := (location, content) :: tree.files }

end FileTree

end LiteralSql
