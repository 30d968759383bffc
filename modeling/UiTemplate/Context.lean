import UiTemplate.Path

/-!
The data that a template is filled from: one object of values. That it is an
object cannot change, so an insertion never goes missing.
-/

namespace UiTemplate

/-- The members of the object at the root. -/
structure Context where
  members : List (String × Value)

namespace Context

def empty : Context := ⟨[]⟩

/-- The context that holds a document. Only objects have something to offer;
any other document gives the empty context. -/
def ofJson (json : Json) : Context :=
  ⟨(Value.ofJson json).members⟩

def root (context : Context) : Value :=
  .object context.members

def get? (context : Context) (path : String) : Option Value :=
  context.root.at? path

def insert (context : Context) (path : String) (value : Value) : Context :=
  ⟨(value.put (Path.segments path) (some context.root)).members⟩

/-- The value at a path, null where there is none. -/
def property (context : Context) (path : String) : Value :=
  (context.get? path).getD .null

/-- What the value at a path looks like inside a text, nothing where there is
no value or it cannot be shown. -/
def shown (context : Context) (path : String) : String :=
  ((context.get? path).bind Value.text?).getD ""

end Context

end UiTemplate
