import UiTemplate.Text.Quoted
import UiTemplate.Value

/-!
The types that a host can build, each with the function that builds it. The
function gets the finished props and the finished content of a node; what it
makes of them is of any type the host likes.
-/

namespace UiTemplate

abbrev Props : Type := List (String × Value)

inductive Content (E : Type) where
  | empty
  | leaf (value : Value)
  | elements (items : List E)

namespace Content

variable {E : Type}

def isEmpty : Content E → Bool
  | .empty => true
  | .leaf value => value.isNull
  | .elements items => items.isEmpty

/-- The text of a leaf that can be shown. -/
def text? : Content E → Option String
  | .leaf value => value.text?
  | _ => none

end Content

/-- What builds the elements of one type. -/
abbrev Constructor (E : Type) : Type := Props → Content E → E

structure Registry (E : Type) where
  constructors : List (String × Constructor E)

namespace Registry

variable {E : Type}

def empty : Registry E := ⟨[]⟩

def get? (registry : Registry E) (type : String) : Option (Constructor E) :=
  Fields.get? type registry.constructors

def contains (registry : Registry E) (type : String) : Bool :=
  (registry.get? type).isSome

/-- The registry with one constructor more. A constructor that had the same
name is replaced. -/
def register (registry : Registry E) (type : String) (constructor : Constructor E) :
    Registry E :=
  ⟨Fields.insert type constructor registry.constructors⟩

/-- A registration together with the constructor that it replaces, if there is
one. -/
def exchange (registry : Registry E) (type : String) (constructor : Constructor E) :
    Option (Constructor E) × Registry E :=
  let (replaced, constructors) := Fields.exchange type constructor registry.constructors
  (replaced, ⟨constructors⟩)

@[simp] theorem get?_empty (type : String) : (empty : Registry E).get? type = none := rfl

theorem get?_register (registry : Registry E) (name type : String)
    (constructor : Constructor E) :
    (registry.register name constructor).get? type =
      if type = name then some constructor else registry.get? type :=
  Fields.get?_insert name type constructor registry.constructors

theorem snd_exchange (registry : Registry E) (type : String) (constructor : Constructor E) :
    (registry.exchange type constructor).2 = registry.register type constructor :=
  congrArg mk (Fields.snd_exchange type constructor registry.constructors)

def names (registry : Registry E) : List String :=
  Fields.names registry.constructors

def size (registry : Registry E) : Nat :=
  registry.constructors.length

def isEmpty (registry : Registry E) : Bool :=
  registry.constructors.isEmpty

/-- A registry as shown to a developer: the names of its types. -/
def inspect (registry : Registry E) : String :=
  let names := Text.join ", ".toList (registry.names.map Text.quoted)
  String.ofList ("Registry \x7b types: [".toList ++ names ++ "] \x7d".toList)

end Registry

end UiTemplate
