import UiTemplate.Fields
import UiTemplate.Text
import UiTemplate.Text.Utf8

/-!
A finite tree of directories and files without links, and how paths lead
through it. A path is walked one component at a time, and each component needs a
directory to start from, so a slash or a dot after a file leads nowhere. A path
that starts with a slash starts at the top of the tree, and any other one at the
working directory. The top is its own parent.
-/

namespace UiTemplate

inductive FileTree where
  | file (content : ByteArray)
  | directory (entries : List (String × FileTree))

/-- Why a path leads nowhere or a file cannot be read. -/
inductive FileError where
  | missing
  | notADirectory
  | isADirectory
  | nameTooLong
  | nulInName
  | notText
deriving DecidableEq

def FileError.message : FileError → String
  | .missing => "No such file or directory (os error 2)"
  | .notADirectory => "Not a directory (os error 20)"
  | .isADirectory => "Is a directory (os error 21)"
  | .nameTooLong => "File name too long (os error 36)"
  | .nulInName => "file name contained an unexpected NUL byte"
  | .notText => "stream did not contain valid UTF-8"

namespace FileTree

/-- The components of a path, empty ones included. -/
def components (path : String) : List String :=
  (Text.splitOn '/' path.toList).map String.ofList

/-- The longest name that a component may have, in bytes. -/
def nameLimit : Nat := 255

/-- The longest path, in bytes. -/
def pathLimit : Nat := 4095

/-- Walks from a place, given with what lies above it, nearest first. -/
def walk (above : List FileTree) (here : FileTree) : List String → Except FileError FileTree
  | [] => .ok here
  | name :: rest =>
    match here with
    | .file _ => .error .notADirectory
    | .directory entries =>
      if name = "" ∨ name = "." then walk above here rest
      else if name = ".." then
        match above with
        | [] => walk [] here rest
        | parent :: above => walk above parent rest
      else if nameLimit < name.utf8ByteSize then .error .nameTooLong
      else
        match Fields.get? name entries with
        | none => .error .missing
        | some next => walk (here :: above) next rest

def entries : FileTree → List (String × FileTree)
  | .directory entries => entries
  | .file _ => []

/-- A tree, or nothing, with what is at the end of the names changed.
Directories on the way are created, and a file on the way gives way to one. -/
def alter (change : Option FileTree → FileTree) : List String → Option FileTree → FileTree
  | [], old => change old
  | name :: rest, old =>
    let known := (old.map entries).getD []
    .directory (Fields.insert name (alter change rest (Fields.get? name known)) known)

/-- The directory that is made where something, or nothing, is. One that is
there already stays. -/
def asDirectory (old : Option FileTree) : FileTree :=
  .directory ((old.map entries).getD [])

/-- Where one component more leads. Places are the names that lead to them from
the top, in reverse. -/
def step (place : List String) (name : String) : List String :=
  if name = "" ∨ name = "." then place
  else if name = ".." then place.tail
  else name :: place

/-- The tree with a directory at every place that the components lead through,
and the last of these places. -/
def makeWay (tree : FileTree) : (place : List String) → List String → FileTree × List String
  | place, [] => (tree, place)
  | place, name :: rest =>
    let place := step place name
    (alter asDirectory place.reverse (some tree)).makeWay place rest

end FileTree

/-- The files that a program finds. -/
structure FileSystem where
  tree : FileTree
  /-- Its components, from the top of the tree. -/
  workingDirectory : List String

namespace FileSystem

open FileTree (components walk)

/-- The components of a path from the top of the tree. -/
def fromTop (files : FileSystem) (path : String) : List String :=
  if path.toList.head? = some '/' then components path
  else files.workingDirectory ++ components path

/-- What a path names. The empty path names nothing. -/
def find (files : FileSystem) (path : String) : Except FileError FileTree :=
  if path.isEmpty then .error .missing
  else if path.toList.contains '\x00' then .error .nulInName
  else if FileTree.pathLimit < path.utf8ByteSize then .error .nameTooLong
  else walk [] files.tree (files.fromTop path)

def isFile (files : FileSystem) (path : String) : Bool :=
  match files.find path with
  | .ok (.file _) => true
  | _ => false

def isDirectory (files : FileSystem) (path : String) : Bool :=
  match files.find path with
  | .ok (.directory _) => true
  | _ => false

def readText (files : FileSystem) (path : String) : Except FileError String :=
  match files.find path with
  | .error error => .error error
  | .ok (.directory _) => .error .isADirectory
  | .ok (.file content) =>
    match Text.Utf8.decode? content with
    | none => .error .notText
    | some text => .ok text

/-- With a directory at a path and at every place on the way. -/
def makeDirectories (files : FileSystem) (path : String) : FileSystem :=
  { files with tree := (files.tree.makeWay [] (files.fromTop path)).1 }

/-- With a file at a path, and directories on the way. -/
def writeFile (files : FileSystem) (path : String) (content : ByteArray) : FileSystem :=
  match (files.fromTop path).reverse with
  | [] => files
  | name :: front =>
    let (tree, place) := files.tree.makeWay [] front.reverse
    let names := (FileTree.step place name).reverse
    { files with tree := FileTree.alter (fun _ => .file content) names (some tree) }

end FileSystem

end UiTemplate
