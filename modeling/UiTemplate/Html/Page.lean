import UiTemplate.Acquisition
import UiTemplate.Build
import UiTemplate.Html.Primitives

/-!
The markup for an acquisition: a mark while it is pending, the message when it
has failed, and the template once it is there.
-/

namespace UiTemplate.Html

def loadingMark : Element where
  tag := "div"
  attributes := [⟨"data-state", some "loading"⟩]

def errorMark (message : String) : Element where
  tag := "div"
  attributes := [⟨"data-state", some "error"⟩]
  text := some message

/-- The markup for a state. Only a template can fail to be built. -/
def renderState (context : Context) (registry : Registry Element) :
    AcquisitionState → Except BuildError String
  | .pending => .ok loadingMark.render
  | .failed error => .ok (errorMark error.message).render
  | .ready document =>
    let interpreter : Interpreter Element := { context, registry }
    (interpreter.build document).result.map Element.render

end UiTemplate.Html
