import UiTemplate.Json.Raw
import UiTemplate.Template

/-!
Reading templates from documents. A document is accepted or refused as a whole.
The first fault is reported, where a node comes before its children and a child
with everything below it before the next child; within a node the type comes
first, then the props, then what is below.
-/

namespace UiTemplate

inductive Fault where
  | notAnObject
  | missingType
  | invalidType
  | invalidProps
  | invalidChildren
deriving DecidableEq

def Fault.message : Fault → String
  | .notAnObject => "node must be an object"
  | .missingType => "missing required 'type'"
  | .invalidType => "'type' must be a non-empty string"
  | .invalidProps => "'props' must be an object"
  | .invalidChildren => "children must be text, a node, or an array of nodes"

inductive TemplateError where
  /-- The text is not a document. -/
  | notJson
  | fault (rule : Fault) (path : NodePath)
deriving DecidableEq

namespace TemplateError

def path? : TemplateError → Option NodePath
  | .notJson => none
  | .fault _ path => some path

def message : TemplateError → String
  | .notJson => "invalid template json: not a JSON document"
  | .fault rule path => path.text ++ ": " ++ rule.message

end TemplateError

namespace Node

/-- The type of a node. Null counts as missing. -/
def readType (path : NodePath) : Option Json → Except TemplateError String
  | none | some .null => .error (.fault .missingType path)
  | some (.string type) =>
    if type.isEmpty then .error (.fault .invalidType path) else .ok type
  | some _ => .error (.fault .invalidType path)

/-- The props of a node. Null counts as missing. -/
def readProps (path : NodePath) :
    Option Json → Except TemplateError (Option (List (String × Json)))
  | none | some .null => .ok none
  | some (.object members) => .ok (some members)
  | some _ => .error (.fault .invalidProps path)

def assemble (path : NodePath) (members : List (String × Json))
    (below : Except TemplateError Children) : Except TemplateError Node := do
  let type ← readType path (Fields.get? "type" members)
  let props ← readProps path (Fields.get? "props" members)
  let children ← below
  return ⟨type, props, children⟩

mutual

/-- The node that a value at this position describes. -/
def readAt (path : NodePath) : Json → Except TemplateError Node
  | .object members => assemble path members (readBelow path members)
  | _ => .error (.fault .notAnObject path)

def readBelow (path : NodePath) : List (String × Json) → Except TemplateError Children
  | [] => .ok .none
  | (name, value) :: members =>
    if name = "children" then readChildren path value else readBelow path members

/-- A node may have one child without a list around it. An empty list is the
same as nothing. -/
def readChildren (path : NodePath) : Json → Except TemplateError Children
  | .null | .array [] => .ok .none
  | .array items => (readItems path 0 items).map .nodes
  | .object members =>
    let first := path.child 0
    (assemble first members (readBelow first members)).map fun node => .nodes [node]
  | leaf => .ok (.leaf leaf)

/-- The children from the given index on, each of which must be an object. -/
def readItems (path : NodePath) (index : Nat) : List Json → Except TemplateError (List Node)
  | [] => .ok []
  | item :: items => do
    let node ←
      match item with
      | .object members =>
        let here := path.child index
        assemble here members (readBelow here members)
      | _ => .error (.fault .invalidChildren (path.child index))
    let nodes ← readItems path (index + 1) items
    return node :: nodes

end

def ofJson (json : Json) : Except TemplateError Node :=
  readAt .root json

def ofText (text : String) : Except TemplateError Node :=
  match Json.ofText? text with
  | none => .error .notJson
  | some json => ofJson json

end Node

end UiTemplate
