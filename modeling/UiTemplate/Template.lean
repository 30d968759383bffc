import UiTemplate.Json

/-!
Templates: trees of typed nodes with props, and either a text or child nodes
below them. Nodes can be put together step by step; documents are read in
`UiTemplate.Template.Reader`.
-/

namespace UiTemplate

/-- Where a node stands: the child indices that lead to it from the root. -/
abbrev NodePath : Type := List Nat

namespace NodePath

def root : NodePath := []

def child (path : NodePath) (index : Nat) : NodePath :=
  path ++ [index]

/-- The key of a position: `0` for the root, and a dot and the index for every
step down. -/
def key (path : NodePath) : String :=
  String.ofList ('0' :: path.flatMap fun index => '.' :: Nat.toDigits 10 index)

def text (path : NodePath) : String :=
  String.ofList ('$' :: path.flatMap fun index =>
    ".children[".toList ++ Nat.toDigits 10 index ++ [']'])

end NodePath

mutual

structure Node where
  type : String
  props : Option (List (String × Json))
  children : Children

/-- What is below a node. A leaf is usually a text, and a list of nodes is
usually not empty; a node that is put together by hand may differ. -/
inductive Children where
  | none
  | leaf (value : Json)
  | nodes (nodes : List Node)

end

instance : Inhabited Node := ⟨⟨"", none, .none⟩⟩

namespace Node

def ofType (type : String) : Node :=
  ⟨type, none, .none⟩

def withProp (node : Node) (name : String) (value : Json) : Node :=
  { node with props := some (Fields.insert name value (node.props.getD [])) }

/-- The node with a leaf below it, and nothing else. -/
def withText (node : Node) (text : Json) : Node :=
  { node with children := .leaf text }

/-- The node with one child node more. A leaf has to go. -/
def withChild (node : Node) (child : Node) : Node :=
  match node.children with
  | .nodes nodes => { node with children := .nodes (nodes ++ [child]) }
  | _ => { node with children := .nodes [child] }

mutual

def count : Node → Nat
  | ⟨_, _, children⟩ => 1 + countBelow children

def countBelow : Children → Nat
  | .nodes nodes => countAll nodes
  | _ => 0

def countAll : List Node → Nat
  | [] => 0
  | node :: nodes => node.count + countAll nodes

end

/-- The members of a node's document. A member that the node does not have is
left out. -/
def document (type : String) (props : Option (List (String × Json)))
    (children : Option Json) : Json :=
  let members := Fields.insert "type" (.string type) []
  let members :=
    match props with
    | some props => Fields.insert "props" (.object props) members
    | none => members
  let members :=
    match children with
    | some children => Fields.insert "children" children members
    | none => members
  .object members

mutual

def toJson : Node → Json
  | ⟨type, props, children⟩ => document type props (toJsonBelow children)

def toJsonBelow : Children → Option Json
  | .none => none
  | .leaf value => some value
  | .nodes nodes => some (.array (toJsonAll nodes))

def toJsonAll : List Node → List Json
  | [] => []
  | node :: nodes => node.toJson :: toJsonAll nodes

end

def sameProps : Option (List (String × Json)) → Option (List (String × Json)) → Bool
  | none, none => true
  | some a, some b => Json.sameMembers a b
  | _, _ => false

mutual

/-- Equality of nodes, numbers compared by value. -/
def same : Node → Node → Bool
  | ⟨type, props, children⟩, ⟨type', props', children'⟩ =>
    type == type' && sameProps props props' && sameBelow children children'

def sameBelow : Children → Children → Bool
  | .none, .none => true
  | .leaf a, .leaf b => a.same b
  | .nodes xs, .nodes ys => sameAll xs ys
  | _, _ => false

def sameAll : List Node → List Node → Bool
  | [], [] => true
  | x :: xs, y :: ys => x.same y && sameAll xs ys
  | _, _ => false

end

end Node

end UiTemplate
