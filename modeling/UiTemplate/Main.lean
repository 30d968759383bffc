import Mathlib.Tactic.DeprecateTo
import UiTemplate.Build.Ulid
import UiTemplate.Command.Run
import UiTemplate.Serve

/-!
The program: a command line, carried out with the files, the clock and the
random numbers of the system. It has no network of its own. A fetch ends as it
does when no server can be reached, and a server answers the request lines that
it reads from the standard input. Of the Mathlib module only the clock is used
that it brings along.
-/

namespace UiTemplate.Program

/-- The parts of a word of the command line that may be the path of a file: the
word itself and what follows an equals sign. -/
def mentionedPaths (word : String) : List String :=
  match Text.cut? ['='] word.toList with
  | none => [word]
  | some (_, value) => [word, String.ofList value]

/-- With what is at a path of this system: a file with its content, or a
directory without its entries. -/
def readInto (files : FileSystem) (path : String) : IO FileSystem := do
  try
    return files.writeFile path (← IO.FS.readBinFile path)
  catch error =>
    match error with
    | .inappropriateType .. => return files.makeDirectories path
    | _ => return files

/-- The files and directories at some paths, seen from the working directory of
the program. -/
def readFiles (paths : List String) : IO FileSystem := do
  let place := FileTree.components (← IO.currentDir).toString
  let bare : FileSystem :=
    { tree := .directory [], workingDirectory := place.filter (· != "") }
  paths.foldlM readInto (bare.makeDirectories ".")

def respond (directory method target : String) : IO Serve.Response := do
  let paths :=
    match ((Serve.targetPath? target).bind Serve.decodePath?).bind Directory.relative? with
    | none => []
    | some path => [path, path ++ ".json", "index.json"]
  let files ← readFiles (paths.map (Directory.join directory))
  return Serve.route files directory method target

/-- Answers request lines, each a method and a target, until there are no more. -/
partial def serve (directory : String) : IO Unit := do
  let line ← (← IO.getStdin).getLine
  if line.isEmpty then return
  match Text.splitOn ' ' (line.toList.filter (· != '\n')) with
  | method :: target :: _ =>
    let response ← respond directory (String.ofList method) (String.ofList target)
    IO.println (Command.decimal response.status ++ " " ++ response.body)
  | _ => pure ()
  serve directory

def world (words : List String) : IO Command.World := do
  let files ← readFiles (words.flatMap mentionedPaths)
  let time := (← Std.Time.Timestamp.now).toMillisecondsSinceUnixEpoch.toInt.toNat
  let bytes ← IO.getRandomBytes 10
  let random := bytes.foldl (fun n byte => n * 256 + byte.toNat) 0
  return {
    files
    network := fun _ => .error "no network"
    listen := fun _ => .ok ()
    mint := fun path => Ulid.text time (path.foldl (fun n index => n * 65537 + index + 1) random) }

def run (words : List String) : IO UInt32 := do
  match Command.parse words with
  | .error .version =>
    IO.print Command.versionText
    return 0
  | .error .help =>
    IO.println "commands: render FILE, fetch PATH, serve [DIR], help"
    return 0
  | .error .usage =>
    IO.eprintln "error: the command line is not understood"
    return 2
  | .ok command =>
    let outcome := Command.run (← world words) command
    IO.print outcome.stdout
    match outcome.served with
    | some directory => serve directory
    | none => pure ()
    match outcome.result with
    | .ok () => return 0
    | .error failure =>
      IO.eprintln failure.message
      return 1

end UiTemplate.Program

def main (words : List String) : IO UInt32 :=
  UiTemplate.Program.run words
