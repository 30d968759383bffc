import UiTemplate.Fetch
import UiTemplate.Template.Reader

/-!
Getting a template and showing what has become of it so far. An acquisition
accepts one attempt when it starts and another whenever it is reloaded after the
last one has settled; an attempt that is accepted is launched, and when it is
over its outcome is published. Accepting, launching and publishing are separate
steps, so that whatever happens between them is a run of such steps as well.
-/

namespace UiTemplate

/-- Why there is no template. -/
inductive AcquisitionError where
  | fetch (error : FetchError)
  | template (error : TemplateError)
deriving DecidableEq

def AcquisitionError.message : AcquisitionError → String
  | .fetch error => error.message
  | .template error => "invalid template document: " ++ error.message

inductive AcquisitionState where
  | pending
  | ready (document : Node)
  | failed (error : AcquisitionError)

namespace AcquisitionState

def isPending : AcquisitionState → Bool
  | .pending => true
  | _ => false

def document? : AcquisitionState → Option Node
  | .ready document => some document
  | _ => none

def error? : AcquisitionState → Option AcquisitionError
  | .failed error => some error
  | _ => none

/-- Equality of states, the documents compared as documents. -/
def same : AcquisitionState → AcquisitionState → Bool
  | .pending, .pending => true
  | .ready a, .ready b => a.same b
  | .failed a, .failed b => a == b
  | _, _ => false

end AcquisitionState

/-- How an attempt ends: the source has answered, or the attempt came to grief. -/
inductive AttemptOutcome where
  | answered (answer : Except FetchError Json)
  | crashed (reason : String)

/-- What an outcome means: a document is shown if it is a template, and
everything else is a failure. -/
def AttemptOutcome.settle : AttemptOutcome → AcquisitionState
  | .crashed reason => .failed (.fetch (.crashed reason))
  | .answered (.error error) => .failed (.fetch error)
  | .answered (.ok json) =>
    match Node.ofJson json with
    | .error error => .failed (.template error)
    | .ok document => .ready document

/-- An acquisition. Attempts are counted in the order in which they are
accepted. -/
structure Acquisition where
  path : String
  /-- What is shown. -/
  state : AcquisitionState
  /-- How many attempts have been accepted. -/
  accepted : Nat
  /-- The attempts that are accepted but not launched. -/
  waiting : List Nat
  /-- The attempts that are launched but not over. -/
  running : List Nat

namespace Acquisition

/-- An acquisition that has accepted and launched its first attempt. -/
def start (path : String) : Acquisition :=
  ⟨path, .pending, 1, [], [0]⟩

/-- Accepts another attempt, unless one is under way. -/
def reload (acquisition : Acquisition) : Acquisition × Bool :=
  if acquisition.state.isPending then (acquisition, false)
  else
    ({ acquisition with
        state := .pending
        accepted := acquisition.accepted + 1
        waiting := acquisition.waiting ++ [acquisition.accepted] }, true)

def launch (acquisition : Acquisition) (attempt : Nat) : Acquisition :=
  if acquisition.waiting.contains attempt then
    { acquisition with
      waiting := acquisition.waiting.erase attempt
      running := acquisition.running ++ [attempt] }
  else acquisition

def publish (acquisition : Acquisition) (attempt : Nat) (outcome : AttemptOutcome) :
    Acquisition :=
  if acquisition.running.contains attempt then
    { acquisition with
      state := outcome.settle
      running := acquisition.running.erase attempt }
  else acquisition

end Acquisition

end UiTemplate
