import SelectorIndex.Text.Cut

/-!
# Files

A file is read by its path. A folder in memory stands for the one that a
command is run in: its files lie side by side, with no folders among them, and
nothing is known of what lies outside. A path is followed name by name, so it
fails at the first name that leads nowhere, and nothing lies below a file.
-/

namespace SelectorIndex.Cli

inductive FileFault where
  | notFound
  | notFolder
  | isFolder
  | nameTooLong
  | other (cause : String)
  deriving DecidableEq, Repr

def FileFault.message : FileFault → String
  | notFound => "No such file or directory (os error 2)"
  | notFolder => "Not a directory (os error 20)"
  | isFolder => "Is a directory (os error 21)"
  | nameTooLong => "File name too long (os error 36)"
  | other cause => cause

/-- The contents of files by path. -/
abbrev Files := String → Except FileFault String

structure Folder where
  files : List (String × String)
  deriving DecidableEq, Repr

namespace Folder

/-- Where a path has led so far. -/
inductive Place where
  | folder
  /-- A folder around the folder. -/
  | outside
  | file (contents : String)
  deriving DecidableEq, Repr

/-- The greatest number of bytes of a name. -/
def maxName : Nat := 255

/-- The least number of bytes of a path that is too long. -/
def maxPath : Nat := 4096

def step (f : Folder) (place : Place) (name : String) : Except FileFault Place :=
  match place with
  | .file _ => .error .notFolder
  | place =>
    if name = "" ∨ name = "." then .ok place
    else if name = ".." then .ok .outside
    else if maxName < name.utf8ByteSize then .error .nameTooLong
    else match place, f.files.lookup name with
      | .folder, some contents => .ok (.file contents)
      | _, _ => .error .notFound

def names (path : String) : List String :=
  (Text.cut (path.toList.map fun c => (c, c == '/'))).map String.ofList

/-- The contents of the file that a path leads to. -/
def read (f : Folder) : Files
  | path =>
    if path = "" then .error .notFound
    else if maxPath ≤ path.utf8ByteSize then .error .nameTooLong
    else
      let start := if path.toList.head? = some '/' then Place.outside else .folder
      match (names path).foldlM f.step start with
      | .ok (.file contents) => .ok contents
      | .ok _ => .error .isFolder
      | .error cause => .error cause

end Folder

end SelectorIndex.Cli
