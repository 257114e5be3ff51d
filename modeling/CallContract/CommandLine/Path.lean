/-!
# Paths

The part of a path that settles the format of a file, and a `Folder` of files in which paths are looked up without a
file system.
-/

namespace CallContract.CommandLine

namespace Path

/-- The names in a path; empty ones and single dots lead nowhere. -/
def names (path : String) : List String :=
  ((path.toList.splitOn '/').filter fun name => !name.isEmpty && name != ['.']).map String.ofList

/-- The part of a file's name behind its last dot, unless that dot is its first character. -/
def extension? (path : String) : Option String :=
  match (names path).getLast? with
  | none | some ".." => none
  | some name =>
    match (name.toList.splitOn '.').reverse with
    | last :: stem :: more => if more.isEmpty && stem.isEmpty then none else some (String.ofList last)
    | _ => none

/-- The path names a JSON file: its extension is `json` in letters of either case. -/
def isJson (path : String) : Bool :=
  (extension? path).any fun extension => extension.toList.map Char.toLower == "json".toList

end Path

/-- Files by their names, which may lead through folders. -/
structure Folder where
  files : List (String × String)

namespace Folder

/-- The reason for which a file cannot be read. -/
inductive Trouble where
  | missing
  | throughFile
  | isFolder

/-- The text of a reason. -/
def Trouble.message : Trouble → String
  | .missing => "No such file or directory (os error 2)"
  | .throughFile => "Not a directory (os error 20)"
  | .isFolder => "Is a directory (os error 21)"

/-- One list of names leads to, or through, another. -/
def leadsTo (some other : List String) : Bool :=
  some.isPrefixOf other

/-- The path can only mean a folder. -/
def endsAsFolder (path : String) : Bool :=
  match (path.toList.splitOn '/').getLast? with
  | some [] | some ['.'] => true
  | _ => false

/-- The contents that a path leads to, or the reason that there are none. -/
def read (folder : Folder) (path : String) : Except String String :=
  let names := Path.names path
  let at? := folder.files.find? fun file => Path.names file.1 == names
  let trouble : Trouble :=
    if names.all (· == "..") || folder.files.any (fun file => leadsTo names (Path.names file.1)) then .isFolder
    else if folder.files.any (fun file => leadsTo (Path.names file.1) names) then .throughFile
    else .missing
  match at? with
  | some file => if endsAsFolder path then .error Trouble.throughFile.message else .ok file.2
  | none => .error trouble.message

end Folder

end CallContract.CommandLine
