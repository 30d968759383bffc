import UiTemplate.Proofs.Build.Steps
import UiTemplate.Proofs.Template.Positions

/-!
What a build puts where. Constructors that keep what they are given make
elements that can be looked into: from the element of a node the elements of its
child nodes can be reached, and so on down. The element reached at a position is
what building the node at that position gives, so a statement about one node
with everything below it is a statement about every position.
-/

namespace UiTemplate

namespace Content

variable {E : Type}

def items : Content E → List E
  | .elements items => items
  | _ => []

/-- What there is to a content besides its elements: of which kind it is, a leaf,
and how many elements there are. -/
def outline : Content E → Content Unit
  | .empty => .empty
  | .leaf value => .leaf value
  | .elements items => .elements (items.map fun _ => ())

end Content

/-- The outline of the content of a node with these children. -/
def Children.outline (context : Context) : Children → Content Unit
  | .none | .nodes [] => .empty
  | .leaf value => .leaf (bindLeaf context value)
  | .nodes items => .elements (items.map fun _ => ())

theorem Children.outline_nodes (context : Context) (nodes : List Node) :
    (Children.nodes nodes).outline context =
      if nodes.isEmpty then .empty else .elements (nodes.map fun _ => ()) := by
  cases nodes with
  | nil => rfl
  | cons node nodes => rfl

/-- A way to look into elements. -/
structure View (E : Type) where
  type : E → String
  props : E → Props
  content : E → Content E

/-- The element that a position leads to. -/
def View.at? {E : Type} (view : View E) (element : E) : NodePath → Option E
  | [] => some element
  | index :: path => (view.content element).items[index]?.bind fun item => view.at? item path

/-- Two elements have their parts where a node has its nodes, and the parts that
are in the same place stand in a relation. -/
def View.Pointwise {E : Type} (view : View E) (relation : Node → E → E → Prop) (node : Node)
    (first second : E) : Prop :=
  ∀ path, match node.at? path, view.at? first path, view.at? second path with
    | some target, some a, some b => relation target a b
    | none, none, none => True
    | _, _, _ => False

/-- The constructors keep what they are given, where the view finds it. -/
structure Registry.Keeps {E : Type} (registry : Registry E) (view : View E) : Prop where
  type : ∀ {type constructor}, registry.get? type = some constructor →
    ∀ props content, view.type (constructor props content) = type
  props : ∀ {type constructor}, registry.get? type = some constructor →
    ∀ props content, view.props (constructor props content) = props
  content : ∀ {type constructor}, registry.get? type = some constructor →
    ∀ props content, view.content (constructor props content) = content

namespace Interpreter

variable {E : Type} {interpreter : Interpreter E} {view : View E} {path below : NodePath}
  {node target : Node} {element : E}

/-- The built child elements are the results of building the child nodes. -/
theorem getElem?_of_buildItems {index : Nat} {nodes : List Node} {elements : List E}
    (h : (interpreter.buildItems path index nodes).result = .ok elements) {i : Nat} {child : Node}
    (hchild : nodes[i]? = some child) :
    ∃ part, elements[i]? = some part ∧
      (interpreter.buildAt (path.child (index + i)) child).result = .ok part := by
  induction nodes generalizing index i elements with
  | nil => cases hchild
  | cons node nodes ih =>
    obtain ⟨first, others, hfirst, hothers, rfl⟩ := result_buildItems_cons_eq_ok_iff.1 h
    cases i with
    | zero =>
      obtain rfl : node = child := by simpa using hchild
      exact ⟨first, rfl, hfirst⟩
    | succ i =>
      obtain ⟨part, hpart, hbuild⟩ := ih hothers (by simpa using hchild)
      refine ⟨part, by simpa using hpart, ?_⟩
      rwa [NodePath.child_add_succ]

/-- Every child becomes one element. -/
theorem length_of_buildItems {index : Nat} {nodes : List Node} {elements : List E}
    (h : (interpreter.buildItems path index nodes).result = .ok elements) :
    elements.length = nodes.length := by
  induction nodes generalizing index elements with
  | nil =>
    cases h
    rfl
  | cons node nodes ih =>
    obtain ⟨first, others, _, hothers, rfl⟩ := result_buildItems_cons_eq_ok_iff.1 h
    rw [List.length_cons, List.length_cons, ih hothers]

/-- Content with child nodes is made of the elements that they are built into. -/
theorem items_of_buildContent {nodes : List Node} {content : Content E}
    (h : (interpreter.buildContent path (.nodes nodes)).result = .ok content) :
    (interpreter.buildItems path 0 nodes).result = .ok content.items ∧
      content.outline = (Children.nodes nodes).outline interpreter.context := by
  rw [buildContent_nodes, Build.result_andThen_eq_ok_iff] at h
  obtain ⟨elements, hitems, hcontent⟩ := h
  have hlength := length_of_buildItems hitems
  rw [Children.outline_nodes]
  cases nodes with
  | nil =>
    obtain rfl := List.eq_nil_of_length_eq_zero hlength
    cases hcontent
    exact ⟨hitems, rfl⟩
  | cons node nodes =>
    cases hcontent
    refine ⟨hitems, ?_⟩
    simp [Content.outline, List.map_const', hlength, List.replicate_succ]

theorem outline_of_buildContent {children : Children} {content : Content E}
    (h : (interpreter.buildContent path children).result = .ok content) :
    content.outline = children.outline interpreter.context := by
  cases children with
  | none =>
    cases h
    rfl
  | leaf value =>
    cases h
    rfl
  | nodes nodes => exact (items_of_buildContent h).2

/-- A node's element is made from what the view finds in it. -/
theorem view_of_buildAt (hkeeps : interpreter.registry.Keeps view)
    (h : (interpreter.buildAt path node).result = .ok element) :
    view.type element = node.type ∧ view.props element = interpreter.props path node.props ∧
      (interpreter.buildContent path node.children).result = .ok (view.content element) := by
  obtain ⟨type, props, children⟩ := node
  obtain ⟨constructor, content, hget, hcontent, rfl⟩ := result_buildAt_eq_ok_iff.1 h
  rw [hkeeps.type hget, hkeeps.props hget, hkeeps.content hget]
  exact ⟨rfl, rfl, hcontent⟩

/-- The outline of an element can be told from its node and the context. -/
theorem outline_of_buildAt (hkeeps : interpreter.registry.Keeps view)
    (h : (interpreter.buildAt path node).result = .ok element) :
    (view.content element).outline = node.children.outline interpreter.context :=
  outline_of_buildContent (view_of_buildAt hkeeps h).2.2

/-- Content has an item for every child node and no others. -/
theorem item_of_buildContent {content : Content E}
    (h : (interpreter.buildContent path node.children).result = .ok content) :
    content.items.length = node.childNodes.length ∧
      ∀ index child, node.childNodes[index]? = some child →
        ∃ part, content.items[index]? = some part ∧
          (interpreter.buildAt (path.child index) child).result = .ok part := by
  obtain ⟨type, props, children⟩ := node
  cases children with
  | none =>
    cases h
    exact ⟨rfl, fun _ _ hchild => nomatch hchild⟩
  | leaf value =>
    cases h
    exact ⟨rfl, fun _ _ hchild => nomatch hchild⟩
  | nodes nodes =>
    obtain ⟨hitems, _⟩ := items_of_buildContent h
    refine ⟨length_of_buildItems hitems, ?_⟩
    intro index child hchild
    obtain ⟨part, hpart, hbuild⟩ := getElem?_of_buildItems hitems hchild
    rw [Nat.zero_add] at hbuild
    exact ⟨part, hpart, hbuild⟩

/-- The items of an element are what its node's children are built into, each at its own
path. -/
theorem item_of_buildAt (hkeeps : interpreter.registry.Keeps view)
    (h : (interpreter.buildAt path node).result = .ok element) :
    (view.content element).items.length = node.childNodes.length ∧
      ∀ index child, node.childNodes[index]? = some child →
        ∃ part, (view.content element).items[index]? = some part ∧
          (interpreter.buildAt (path.child index) child).result = .ok part :=
  item_of_buildContent (view_of_buildAt hkeeps h).2.2

/-- The element at a position is what the node at that position is built into. -/
theorem at?_of_buildAt (hkeeps : interpreter.registry.Keeps view)
    (h : (interpreter.buildAt path node).result = .ok element)
    (hat : node.at? below = some target) :
    ∃ part, view.at? element below = some part ∧
      (interpreter.buildAt (path ++ below) target).result = .ok part := by
  induction below generalizing path node element with
  | nil =>
    cases hat
    exact ⟨element, rfl, by rwa [List.append_nil]⟩
  | cons index below ih =>
    obtain ⟨child, hchild, hbelow⟩ := Node.at?_cons_eq_some_iff.1 hat
    obtain ⟨item, hitem, hbuild⟩ := (item_of_buildAt hkeeps h).2 index child hchild
    obtain ⟨part, hpart, hresult⟩ := ih hbuild hbelow
    rw [NodePath.child, List.append_assoc] at hresult
    refine ⟨part, ?_, hresult⟩
    rw [View.at?, hitem, Option.bind_some, hpart]

/-- Where there is no node there is no element. -/
theorem at?_of_buildAt_of_none (hkeeps : interpreter.registry.Keeps view)
    (h : (interpreter.buildAt path node).result = .ok element) (hat : node.at? below = none) :
    view.at? element below = none := by
  induction below generalizing path node element with
  | nil => cases hat
  | cons index below ih =>
    obtain ⟨hlength, hitems⟩ := item_of_buildAt hkeeps h
    rw [Node.at?] at hat
    rw [View.at?]
    cases hchild : node.childNodes[index]? with
    | none =>
      have hitem : (view.content element).items[index]? = none := by
        rw [List.getElem?_eq_none_iff] at hchild ⊢
        rwa [hlength]
      rw [hitem, Option.bind_none]
    | some child =>
      obtain ⟨item, hitem, hbuild⟩ := hitems index child hchild
      rw [hchild, Option.bind_some] at hat
      rw [hitem, Option.bind_some, ih hbuild hat]

/-- Two builds of one tree have the same positions, so a relation between what
every node becomes in them is one between the built trees. -/
theorem pointwise_of_buildAt {first second : Interpreter E} {path other : NodePath} {a b : E}
    {relation : Node → E → E → Prop} (hfirst : first.registry.Keeps view)
    (hsecond : second.registry.Keeps view) (ha : (first.buildAt path node).result = .ok a)
    (hb : (second.buildAt other node).result = .ok b)
    (h : ∀ below target x y, node.at? below = some target →
      (first.buildAt (path ++ below) target).result = .ok x →
      (second.buildAt (other ++ below) target).result = .ok y → relation target x y) :
    view.Pointwise relation node a b := by
  intro below
  cases hat : node.at? below with
  | none =>
    rw [at?_of_buildAt_of_none hfirst ha hat, at?_of_buildAt_of_none hsecond hb hat]
    trivial
  | some target =>
    obtain ⟨x, hx, hbuildX⟩ := at?_of_buildAt hfirst ha hat
    obtain ⟨y, hy, hbuildY⟩ := at?_of_buildAt hsecond hb hat
    rw [hx, hy]
    exact h below target x y hat hbuildX hbuildY

end Interpreter

end UiTemplate
