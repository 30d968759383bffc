import UiTemplate.Proofs.Build.Steps
import UiTemplate.Proofs.Template.Positions

/-!
When two builds of a template are the same. It is enough to look at one node at a
time: if at every node both interpreters find the same constructor, finish the
same props and put in the same leaf, they make the same calls and come to the
same result. Keys do not tell two interpreters apart unless they are random.
-/

namespace UiTemplate.Interpreter

variable {E : Type} {first second : Interpreter E}

/-- Both interpreters make the same of a node at a position, its children left
aside. -/
structure AgreeAt (first second : Interpreter E) (path : NodePath) (node : Node) : Prop where
  constructors : first.registry.get? node.type = second.registry.get? node.type
  props : first.props path node.props = second.props path node.props
  leaf : ∀ value, node.children = .leaf value →
    bindLeaf first.context value = bindLeaf second.context value

/-- Both interpreters make the same of every node of a tree at a position. -/
def Agree (first second : Interpreter E) (path : NodePath) (node : Node) : Prop :=
  ∀ below target, node.at? below = some target → AgreeAt first second (path ++ below) target

theorem Agree.here {path : NodePath} {node : Node} (h : Agree first second path node) :
    AgreeAt first second path node := by
  have hnode := h [] node rfl
  rwa [List.append_nil] at hnode

theorem Agree.child {path : NodePath} {node child : Node} {index : Nat}
    (h : Agree first second path node) (hchild : node.childNodes[index]? = some child) :
    Agree first second (path.child index) child := by
  intro below target htarget
  have hnode := h (index :: below) target (Node.at?_cons_eq_some_iff.2 ⟨child, hchild, htarget⟩)
  rwa [NodePath.child, List.append_assoc]

mutual

/-- Interpreters that agree on a node and on all below it build it alike. -/
theorem buildAt_congr : (path : NodePath) → (node : Node) → Agree first second path node →
    first.buildAt path node = second.buildAt path node
  | path, ⟨type, props, children⟩, h => by
    obtain ⟨hconstructors, hprops, hleaf⟩ := h.here
    have hcontent := buildContent_congr path children hleaf fun nodes hnodes index child hchild =>
      h.child (by rw [Node.childNodes, hnodes]; exact hchild)
    cases hget : second.registry.get? type with
    | none =>
      rw [buildAt_of_get?_eq_none (hconstructors.trans hget), buildAt_of_get?_eq_none hget]
    | some constructor =>
      rw [buildAt_of_get? (hconstructors.trans hget), buildAt_of_get? hget, hcontent, hprops]

theorem buildContent_congr : (path : NodePath) → (children : Children) →
    (∀ value, children = .leaf value →
      bindLeaf first.context value = bindLeaf second.context value) →
    (∀ nodes, children = .nodes nodes → ∀ (index : Nat) (child : Node),
      nodes[index]? = some child → Agree first second (path.child index) child) →
    first.buildContent path children = second.buildContent path children
  | _, .none, _, _ => rfl
  | _, .leaf value, hleaf, _ => by
    rw [buildContent, buildContent, hleaf value rfl]
  | path, .nodes nodes, _, hnodes => by
    have hitems := buildItems_congr path 0 nodes fun index child hchild => by
      rw [Nat.zero_add]
      exact hnodes nodes rfl index child hchild
    rw [buildContent_nodes, buildContent_nodes, hitems]

theorem buildItems_congr : (path : NodePath) → (index : Nat) → (nodes : List Node) →
    (∀ (i : Nat) (child : Node), nodes[i]? = some child →
      Agree first second (path.child (index + i)) child) →
    first.buildItems path index nodes = second.buildItems path index nodes
  | _, _, [], _ => rfl
  | path, index, node :: nodes, h => by
    have hnode := buildAt_congr (path.child index) node (h 0 node rfl)
    have hnodes := buildItems_congr path (index + 1) nodes fun i child hchild => by
      rw [← NodePath.child_add_succ]
      exact h (i + 1) child (by simpa using hchild)
    rw [buildItems, buildItems, hnode, hnodes]

end

/-- What is minted for a key shows only under the random strategy. -/
theorem assignKey_congr (hoptions : first.options = second.options)
    (hkeys : first.options.keys ≠ .random) (path : NodePath) (props : Props) :
    first.assignKey path props = second.assignKey path props := by
  rw [assignKey, assignKey, ← hoptions]
  cases hstrategy : first.options.keys with
  | random => exact absurd hstrategy hkeys
  | treePath => rfl
  | none => rfl

/-- Two interpreters that differ only in their random keys build the same if
they do not use them. -/
theorem build_eq_of_keys (hcontext : first.context = second.context)
    (hregistry : first.registry = second.registry) (hoptions : first.options = second.options)
    (hkeys : first.options.keys ≠ .random) (node : Node) :
    first.build node = second.build node := by
  apply buildAt_congr
  intro below target _
  refine ⟨by rw [hregistry], ?_, ?_⟩
  · rw [props, props, hcontext, assignKey_congr hoptions hkeys]
  · intro value _
    rw [hcontext]

end UiTemplate.Interpreter
