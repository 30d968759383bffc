import UiTemplate.Binding
import UiTemplate.Build.Options
import UiTemplate.Registry
import UiTemplate.Template.Reader

/-!
Building a template. A node's type is looked up before anything below it is
built, and its constructor is called after everything below it has been; so a
missing type is found on the way down and elements come into being on the way
up. What a build did is recorded beside what came out of it.
-/

namespace UiTemplate

inductive BuildError where
  | unknownType (type : String) (path : NodePath)
  | template (error : TemplateError)
deriving DecidableEq

namespace BuildError

def path? : BuildError → Option NodePath
  | .unknownType _ path => some path
  | .template error => error.path?

def message : BuildError → String
  | .unknownType type path => path.text ++ ": unknown type '" ++ type ++ "'"
  | .template error => error.message

end BuildError

/-- The result of a build and the nodes whose constructors were called for it,
in the order of the calls. -/
structure Build (α : Type) where
  called : List (NodePath × String)
  result : Except BuildError α

namespace Build

variable {α β : Type}

def fail (error : BuildError) : Build α :=
  ⟨[], .error error⟩

def done (value : α) : Build α :=
  ⟨[], .ok value⟩

/-- One build and then another that needs its result. -/
def andThen (first : Build α) (next : α → Build β) : Build β :=
  match first.result with
  | .error error => ⟨first.called, .error error⟩
  | .ok value =>
    let second := next value
    ⟨first.called ++ second.called, second.result⟩

end Build

/-- What a template is built with. Random keys come from outside: `mint` gives
the key for a position. -/
structure Interpreter (E : Type) where
  context : Context
  registry : Registry E
  options : BuildOptions := {}
  mint : NodePath → String := NodePath.key

namespace Interpreter

variable {E : Type}

/-- The props with a key, unless they have one or no keys are wanted. A prop
that is null is not a key. -/
def assignKey (interpreter : Interpreter E) (path : NodePath) (props : Props) : Props :=
  let options := interpreter.options
  match Fields.get? options.keyProp props with
  | none | some .null =>
    match options.keys with
    | .treePath => Fields.insert options.keyProp (.string path.key) props
    | .random => Fields.insert options.keyProp (.string (interpreter.mint path)) props
    | .none => props
  | some _ => props

def props (interpreter : Interpreter E) (path : NodePath)
    (raw : Option (List (String × Json))) : Props :=
  interpreter.assignKey path (bindProps interpreter.context raw)

mutual

def buildAt (interpreter : Interpreter E) (path : NodePath) : Node → Build E
  | ⟨type, props, children⟩ =>
    match interpreter.registry.get? type with
    | none => .fail (.unknownType type path)
    | some constructor =>
      (interpreter.buildContent path children).andThen fun content =>
        ⟨[(path, type)], .ok (constructor (interpreter.props path props) content)⟩

def buildContent (interpreter : Interpreter E) (path : NodePath) : Children → Build (Content E)
  | .none | .nodes [] => .done .empty
  | .leaf value => .done (.leaf (bindLeaf interpreter.context value))
  | .nodes nodes =>
    (interpreter.buildItems path 0 nodes).andThen fun elements => .done (.elements elements)

/-- Builds the children from the given index on, from left to right. -/
def buildItems (interpreter : Interpreter E) (path : NodePath) (index : Nat) :
    List Node → Build (List E)
  | [] => .done []
  | node :: nodes =>
    (interpreter.buildAt (path.child index) node).andThen fun element =>
      (interpreter.buildItems path (index + 1) nodes).andThen fun elements =>
        .done (element :: elements)

end

def build (interpreter : Interpreter E) (node : Node) : Build E :=
  interpreter.buildAt .root node

def buildJson (interpreter : Interpreter E) (json : Json) : Build E :=
  match Node.ofJson json with
  | .error error => .fail (.template error)
  | .ok node => interpreter.build node

/-- Builds a template, or the placeholder where there is none. -/
def buildDocument (interpreter : Interpreter E) (document : Option Node) : Build E :=
  interpreter.build (document.getD (.ofType interpreter.options.placeholderType))

end Interpreter

end UiTemplate
