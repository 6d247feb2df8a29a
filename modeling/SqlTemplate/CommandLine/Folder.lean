import SqlTemplate.Text.Escaped

/-!
# Files below a folder

A file is read by its path. The parts of a path lie between slashes and are followed one by one from
the folder on, or from the root if the path begins with a slash; a single dot stays where it is and
two dots lead up. `Folder.read` is what a path gives when only the files below one folder are known:
above the folder there are directories, but no file is found in them.
-/

namespace SqlTemplate

namespace CommandLine

/-- Why a file cannot be read. -/
inductive FileFault where
  | nullCharacter
  | notFound
  | notDirectory
  | isDirectory
  | nameTooLong
deriving DecidableEq, Repr

namespace FileFault

/-- The text of a fault of a path. -/
def message (path : Text) : FileFault → Text
  | nullCharacter => "embedded null byte".toList
  | notFound => "[Errno 2] No such file or directory: ".toList ++ Escaped.text path
  | notDirectory => "[Errno 20] Not a directory: ".toList ++ Escaped.text path
  | isDirectory => "[Errno 21] Is a directory: ".toList ++ Escaped.text path
  | nameTooLong => "[Errno 36] File name too long: ".toList ++ Escaped.text path

end FileFault

/-- How many bytes a text has in UTF-8. -/
def byteLength (t : Text) : Nat := t.foldl (fun n c => n + c.utf8Size) 0

/-- The parts of a path, empty ones included. -/
def pathParts : Text → List Text
  | [] => [[]]
  | c :: t =>
    if c = '/' then [] :: pathParts t
    else
      match pathParts t with
      | [] => [[c]]
      | part :: parts => (c :: part) :: parts

/-- The paths of the files below a folder, and their contents. -/
abbrev Folder := List (Text × Text)

/-- Where following a path has led to. -/
inductive Location where
  /-- The folder, or a directory below it that is reached by these parts. -/
  | below (parts : List Text)
  /-- A directory above the folder. -/
  | above
  | file (content : Text)
deriving DecidableEq, Repr

namespace Folder

/-- The longest part of a path, in bytes. -/
def partLimit : Nat := 255

/-- The longest path, in bytes. -/
def pathLimit : Nat := 4095

/-- What lies below the folder at the end of the given parts. -/
def entry? (f : Folder) (parts : List Text) : Option Location :=
  match f.find? fun (path, _) => pathParts path == parts with
  | some (_, content) => some (.file content)
  | none =>
    if f.any fun (path, _) => parts.isPrefixOf (pathParts path) then some (.below parts) else none

def follow (f : Folder) (l : Location) (part : Text) : Except FileFault Location :=
  match l with
  | .file _ => .error .notDirectory
  | .above =>
    if part = [] ∨ part = ".".toList ∨ part = "..".toList then .ok .above
    else if partLimit < byteLength part then .error .nameTooLong
    else .error .notFound
  | .below parts =>
    if part = [] ∨ part = ".".toList then .ok l
    else if part = "..".toList then .ok (if parts.isEmpty then .above else .below parts.dropLast)
    else if partLimit < byteLength part then .error .nameTooLong
    else
      match f.entry? (parts ++ [part]) with
      | some l => .ok l
      | none => .error .notFound

/-- The content of the file with a path. -/
def read (f : Folder) (path : Text) : Except FileFault Text :=
  if pathLimit < byteLength path then .error .nameTooLong
  else if path.isEmpty then .error .notFound
  else
    let start : Location := if path.head? = some '/' then .above else .below []
    match (pathParts path).foldlM f.follow start with
    | .ok (.file content) => .ok content
    | .ok _ => .error .isDirectory
    | .error fault => .error fault

end Folder

end CommandLine

end SqlTemplate
