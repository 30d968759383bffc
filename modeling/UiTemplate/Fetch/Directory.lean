import UiTemplate.Fetch
import UiTemplate.FileTree

/-!
Documents from the files below a directory. A path names a file by its name,
with or without the ending `.json`, and no path leads out of the directory,
because no component of it may go up.
-/

namespace UiTemplate.Directory

/-- A request without the slashes in front, if no component of it goes up. -/
def relative? (request : String) : Option String :=
  let path := String.ofList (request.toList.dropWhile (· == '/'))
  if (FileTree.components path).contains ".." then none else some path

def join (root path : String) : String :=
  if root.isEmpty || root.toList.getLast? == some '/' then root ++ path
  else root ++ "/" ++ path

/-- The name at the end of a path. Empty components and single dots are no
names. -/
def fileName? (path : String) : Option String :=
  ((FileTree.components path).filter fun name => name != "" && name != ".").getLast?

/-- What follows the last dot of a name. A dot at the start of a name, like the
name of two dots, starts no extension. -/
def extension? (name : String) : Option String :=
  if name = ".." then none
  else
    match (Text.splitOn '.' name.toList).reverse with
    | last :: before :: earlier =>
      if before.isEmpty && earlier.isEmpty then none else some (String.ofList last)
    | _ => none

def isJsonName (path : String) : Bool :=
  (fileName? path).bind extension? == some "json"

/-- The path of the file for a request below `root`, if there is one: the file
of that name if the name says JSON, or else the one whose name is longer by
`.json`. For an empty request it is the index. -/
def locate (files : FileSystem) (root request : String) : Option String :=
  match relative? request with
  | none => none
  | some path =>
    if path.isEmpty then
      let index := join root "index.json"
      if files.isFile index then some index else none
    else
      let direct := join root path
      let extended := join root (path ++ ".json")
      if files.isFile direct && isJsonName direct then some direct
      else if files.isFile extended then some extended
      else none

def fetch (files : FileSystem) (root : String) : Fetcher := fun request =>
  match locate files root request with
  | none => .error (.notFound request)
  | some path =>
    match files.readText path with
    | .error error => .error (.malformed path error.message)
    | .ok text => documentFrom path text

end UiTemplate.Directory
