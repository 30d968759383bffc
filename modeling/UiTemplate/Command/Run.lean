import UiTemplate.Command.Line
import UiTemplate.Fetch.Directory
import UiTemplate.Fetch.Http
import UiTemplate.Html.Page

/-!
Carrying out a command. What a command finds in the world is given: the files,
the network, whether a port is free. What it does is returned: the lines it
prints, whether it succeeds, and the directory that it goes on to serve.
-/

namespace UiTemplate

namespace Command

inductive Failure where
  | unreadable (file : String) (error : FileError)
  | badTemplate (file : String) (error : TemplateError)
  | contextFileNotJson (file : String)
  | contextNotJson
  | contextNotAnObject
  | badSettings (file : String)
  | noBase
  | build (error : BuildError)
  | acquisition (error : AcquisitionError)
  | notADirectory (path : String)
  | portTaken (port : Nat) (reason : String)
deriving DecidableEq

def decimal (n : Nat) : String :=
  String.ofList (Nat.toDigits 10 n)

def Failure.message : Failure → String
  | .unreadable file error => "failed to read " ++ file ++ ": " ++ error.message
  | .badTemplate file error => "invalid template " ++ file ++ ": " ++ error.message
  | .contextFileNotJson file => "invalid JSON in " ++ file ++ ": " ++ notJsonReason
  | .contextNotJson => "invalid --context JSON: " ++ notJsonReason
  | .contextNotAnObject => "context must be a JSON object"
  | .badSettings file => "failed to parse " ++ file ++ ": " ++ notJsonReason
  | .noBase => "fetch requires --base or a config file with baseUrl"
  | .build error => error.message
  | .acquisition error => error.message
  | .notADirectory path => "not a directory: " ++ path
  | .portTaken port reason => "failed to bind 0.0.0.0:" ++ decimal port ++ ": " ++ reason

structure World where
  files : FileSystem
  network : Http.Network
  /-- Takes a port for a server, or says why it cannot. -/
  listen : Nat → Except String Unit
  /-- A fresh key for a node. -/
  mint : NodePath → String

structure Outcome where
  /-- The lines it prints. -/
  lines : List String
  result : Except Failure Unit
  /-- The directory that is served from now on. -/
  served : Option String := none

namespace Outcome

def fail (failure : Failure) : Outcome :=
  { lines := [], result := .error failure }

def print (line : String) : Outcome :=
  { lines := [line], result := .ok () }

def stdout (outcome : Outcome) : String :=
  String.ofList (outcome.lines.flatMap fun line => line.toList ++ ['\n'])

end Outcome

def readFile (world : World) (file : String) : Except Failure String :=
  (world.files.readText file).mapError (.unreadable file)

/-- The document of a context: the content of the file if there is one of that
name, or else the words themselves. -/
def readContextJson (world : World) (words : String) : Except Failure Json :=
  if world.files.isFile words then do
    let text ← readFile world words
    match Json.ofText? text with
    | none => throw (.contextFileNotJson words)
    | some json => return json
  else
    match Json.ofText? words with
    | none => .error .contextNotJson
    | some json => .ok json

/-- The context of a command, empty if none is given. -/
def readContext (world : World) : Option String → Except Failure Context
  | none => .ok .empty
  | some words => do
    match ← readContextJson world words with
    | .object members => return .ofJson (.object members)
    | _ => throw .contextNotAnObject

def renderFile (world : World) (file : String) (context : Option String)
    (keys : KeyStrategy) : Except Failure String := do
  let text ← readFile world file
  let document ← (Node.ofText text).mapError (.badTemplate file)
  let context ← readContext world context
  let interpreter : Interpreter Html.Element :=
    { context, registry := Html.primitives, options := { keys }, mint := world.mint }
  let element ← (interpreter.build document).result.mapError .build
  return element.render

/-- The settings of a fetch. A base on the command line counts more than the
one in the file, and there must be one. -/
def readSettings (world : World) (base file : Option String) :
    Except Failure FetchSettings := do
  let settings ←
    match file with
    | none => pure {}
    | some file => do
      let text ← readFile world file
      match FetchSettings.ofText? text with
      | none => throw (.badSettings file)
      | some settings => pure settings
  let settings := { settings with baseUrl := base.getD settings.baseUrl }
  if settings.baseUrl.isEmpty then throw .noBase
  return settings

def acquire (world : World) (settings : FetchSettings) (path : String) : AcquisitionState :=
  let outcome := AttemptOutcome.answered (Http.fetch settings world.network path)
  ((Acquisition.start path).publish 0 outcome).state

/-- Fetches a template and prints its markup, or the mark of the failure. -/
def runFetch (world : World) (path : String) (base file context : Option String) :
    Except Failure Outcome := do
  let settings ← readSettings world base file
  let context ← readContext world context
  let state := acquire world settings path
  let markup ← (Html.renderState context Html.primitives state).mapError .build
  let result :=
    match state.error? with
    | some error => .error (.acquisition error)
    | none => .ok ()
  return { lines := [markup], result }

def runServe (world : World) (directory : String) (port : Nat) : Except Failure Outcome := do
  if !world.files.isDirectory directory then throw (.notADirectory directory)
  (world.listen port).mapError (.portTaken port)
  return { Outcome.print ("URL:  http://localhost:" ++ decimal port) with
    served := some directory }

def run (world : World) (command : Command) : Outcome :=
  let outcome :=
    match command with
    | .render file context keys => (renderFile world file context keys).map Outcome.print
    | .fetch path base file context => runFetch world path base file context
    | .serve directory port => runServe world directory port
  match outcome with
  | .ok outcome => outcome
  | .error failure => .fail failure

def versionText : String := "sdr 0.1.0\n"

end Command

end UiTemplate
