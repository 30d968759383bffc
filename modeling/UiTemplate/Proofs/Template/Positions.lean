import UiTemplate.Template

/-!
The positions of a template. A position is the list of child indices that leads
to a node; `Node.at?` follows it. The nodes of a tree can be listed in two
orders: a node before what is below it, or after it. Both lists hold the same
nodes, every node is in them, and the position it is listed with leads to it.
-/

namespace UiTemplate

namespace NodePath

/-- The first position is that of a proper ancestor of the second. -/
def IsAbove (upper lower : NodePath) : Prop :=
  upper <+: lower ∧ upper ≠ lower

instance (upper lower : NodePath) : Decidable (IsAbove upper lower) :=
  inferInstanceAs (Decidable (_ ∧ _))

/-- Below different children of one node there are no common positions. -/
theorem index_eq_of_child_isPrefix {path lower : NodePath} {i j : Nat}
    (hi : path.child i <+: lower) (hj : path.child j <+: lower) : i = j := by
  obtain ⟨restI, rfl⟩ := hi
  obtain ⟨restJ, hrest⟩ := hj
  simp only [child, List.append_assoc, List.append_cancel_left_eq] at hrest
  exact (List.cons.inj hrest).1.symm

theorem child_add_succ (path : NodePath) (index i : Nat) :
    path.child (index + (i + 1)) = path.child (index + 1 + i) := by
  rw [Nat.add_assoc, Nat.add_comm 1 i]

end NodePath

/-- A node as it is met on a walk through a tree: where it stands and what its
type is. -/
abbrev Visit : Type := NodePath × String

namespace Node

def childNodes (node : Node) : List Node :=
  match node.children with
  | .nodes nodes => nodes
  | _ => []

def at? (node : Node) : NodePath → Option Node
  | [] => some node
  | index :: path => node.childNodes[index]?.bind fun child => child.at? path

theorem at?_cons_eq_some_iff {node target : Node} {index : Nat} {path : NodePath} :
    node.at? (index :: path) = some target ↔
      ∃ child, node.childNodes[index]? = some child ∧ child.at? path = some target :=
  Option.bind_eq_some_iff

/-- A node below a part of the tree is found from that part. -/
theorem at?_append (node : Node) (upper below : NodePath) :
    node.at? (upper ++ below) = (node.at? upper).bind fun part => part.at? below := by
  induction upper generalizing node with
  | nil => rfl
  | cons index upper ih =>
    rw [List.cons_append, at?, at?]
    cases node.childNodes[index]? with
    | none => rfl
    | some child => exact ih child

/-- What holds at every position of a tree holds of its root and at every
position of the trees below it. -/
theorem forall_at?_iff {node : Node} {p : Node → Prop} :
    (∀ path target, node.at? path = some target → p target) ↔
      p node ∧ ∀ child ∈ node.childNodes, ∀ path target, child.at? path = some target → p target := by
  constructor
  · intro h
    refine ⟨h [] node rfl, ?_⟩
    intro child hchild path target htarget
    obtain ⟨index, hindex⟩ := List.mem_iff_getElem?.1 hchild
    exact h (index :: path) target (at?_cons_eq_some_iff.2 ⟨child, hindex, htarget⟩)
  · rintro ⟨hhere, hbelow⟩ path target htarget
    cases path with
    | nil =>
      cases htarget
      exact hhere
    | cons index path =>
      obtain ⟨child, hchild, hat⟩ := at?_cons_eq_some_iff.1 htarget
      exact hbelow child (List.mem_of_getElem? hchild) path target hat

theorem sizeOf_lt_of_mem_childNodes {node child : Node} (h : child ∈ node.childNodes) :
    sizeOf child < sizeOf node := by
  obtain ⟨type, props, children⟩ := node
  cases children with
  | none => cases h
  | leaf value => cases h
  | nodes nodes =>
    have hlt := List.sizeOf_lt_of_mem h
    simp only [childNodes, Node.mk.sizeOf_spec, Children.nodes.sizeOf_spec] at hlt ⊢
    omega

/-- What a node inherits from its child nodes holds of every node. -/
@[elab_as_elim]
theorem node_induction {motive : Node → Prop}
    (step : ∀ node, (∀ child ∈ node.childNodes, motive child) → motive node) (node : Node) :
    motive node :=
  step node fun child _h => node_induction step child
termination_by sizeOf node
decreasing_by exact sizeOf_lt_of_mem_childNodes _h

mutual

/-- The nodes of a tree at a position, every node before what is below it. -/
def preorder (path : NodePath) : Node → List Visit
  | ⟨type, _, children⟩ => (path, type) :: preorderBelow path children

def preorderBelow (path : NodePath) : Children → List Visit
  | .nodes nodes => preorderItems path 0 nodes
  | _ => []

def preorderItems (path : NodePath) (index : Nat) : List Node → List Visit
  | [] => []
  | node :: nodes => node.preorder (path.child index) ++ preorderItems path (index + 1) nodes

end

mutual

/-- The nodes of a tree at a position, every node after what is below it. -/
def postorder (path : NodePath) : Node → List Visit
  | ⟨type, _, children⟩ => postorderBelow path children ++ [(path, type)]

def postorderBelow (path : NodePath) : Children → List Visit
  | .nodes nodes => postorderItems path 0 nodes
  | _ => []

def postorderItems (path : NodePath) (index : Nat) : List Node → List Visit
  | [] => []
  | node :: nodes => node.postorder (path.child index) ++ postorderItems path (index + 1) nodes

end

/-- The nodes that come before a given one in pre-order. -/
def before (node : Node) (visit : Visit) : List Visit :=
  (node.preorder .root).takeWhile (· != visit)

mutual

/-- Both orders visit the same nodes. -/
theorem postorder_perm : (path : NodePath) → (node : Node) →
    (node.postorder path).Perm (node.preorder path)
  | path, ⟨type, _, children⟩ => by
    rw [postorder, preorder]
    exact (List.perm_append_singleton _ _).trans ((postorderBelow_perm path children).cons _)

theorem postorderBelow_perm : (path : NodePath) → (children : Children) →
    (postorderBelow path children).Perm (preorderBelow path children)
  | path, .nodes nodes => by
    rw [postorderBelow, preorderBelow]
    exact postorderItems_perm path 0 nodes
  | _, .none => .refl _
  | _, .leaf _ => .refl _

theorem postorderItems_perm : (path : NodePath) → (index : Nat) → (nodes : List Node) →
    (postorderItems path index nodes).Perm (preorderItems path index nodes)
  | _, _, [] => .refl _
  | path, index, node :: nodes => by
    rw [postorderItems, preorderItems]
    exact (postorder_perm (path.child index) node).append
      (postorderItems_perm path (index + 1) nodes)

end

mutual

/-- Every node is visited once. -/
theorem length_preorder : (path : NodePath) → (node : Node) →
    (node.preorder path).length = node.count
  | path, ⟨type, _, children⟩ => by
    rw [preorder, count, List.length_cons, length_preorderBelow path children, Nat.add_comm]

theorem length_preorderBelow : (path : NodePath) → (children : Children) →
    (preorderBelow path children).length = countBelow children
  | path, .nodes nodes => by
    rw [preorderBelow, countBelow, length_preorderItems path 0 nodes]
  | _, .none => rfl
  | _, .leaf _ => rfl

theorem length_preorderItems : (path : NodePath) → (index : Nat) → (nodes : List Node) →
    (preorderItems path index nodes).length = countAll nodes
  | _, _, [] => rfl
  | path, index, node :: nodes => by
    rw [preorderItems, countAll, List.length_append, length_preorder (path.child index) node,
      length_preorderItems path (index + 1) nodes]

end

mutual

/-- The position that a node is listed with leads to it. -/
theorem at?_of_mem_preorder : (path : NodePath) → (node : Node) → {visit : Visit} →
    visit ∈ node.preorder path →
    ∃ below, visit.1 = path ++ below ∧ (node.at? below).map type = some visit.2
  | path, ⟨type, _, children⟩, visit, h => by
    rw [preorder, List.mem_cons] at h
    rcases h with rfl | h
    · exact ⟨[], (List.append_nil _).symm, rfl⟩
    · cases children with
      | none => cases h
      | leaf _ => cases h
      | nodes nodes =>
        obtain ⟨i, below, hpath, hat⟩ := at?_of_mem_preorderItems path 0 nodes h
        refine ⟨i :: below, by simpa using hpath, ?_⟩
        simpa [at?, childNodes] using hat

theorem at?_of_mem_preorderItems : (path : NodePath) → (index : Nat) → (nodes : List Node) →
    {visit : Visit} → visit ∈ preorderItems path index nodes →
    ∃ i below, visit.1 = path ++ (index + i) :: below ∧
      (nodes[i]?.bind fun child => child.at? below).map type = some visit.2
  | path, index, node :: nodes, visit, h => by
    rw [preorderItems, List.mem_append] at h
    rcases h with h | h
    · obtain ⟨below, hpath, hat⟩ := at?_of_mem_preorder (path.child index) node h
      refine ⟨0, below, ?_, hat⟩
      rw [hpath]
      simp [NodePath.child]
    · obtain ⟨i, below, hpath, hat⟩ := at?_of_mem_preorderItems path (index + 1) nodes h
      refine ⟨i + 1, below, ?_, hat⟩
      rw [hpath, Nat.add_assoc, Nat.add_comm 1 i]

end

/-- A visit is to a node of its type at its position. -/
theorem at?_of_mem_root {node : Node} {visit : Visit} (h : visit ∈ node.preorder .root) :
    (node.at? visit.1).map type = some visit.2 := by
  obtain ⟨below, hpath, hat⟩ := at?_of_mem_preorder .root node h
  rwa [hpath]

/-- Visits below a node have paths that begin with the node's. -/
theorem isPrefix_of_mem_preorder {path : NodePath} {node : Node} {visit : Visit}
    (h : visit ∈ node.preorder path) : path <+: visit.1 := by
  obtain ⟨below, hpath, _⟩ := at?_of_mem_preorder path node h
  exact ⟨below, hpath.symm⟩

theorem isPrefix_of_mem_preorderItems {path : NodePath} {index : Nat} {nodes : List Node}
    {visit : Visit} (h : visit ∈ preorderItems path index nodes) :
    ∃ i, index ≤ i ∧ path.child i <+: visit.1 := by
  obtain ⟨i, below, hpath, _⟩ := at?_of_mem_preorderItems path index nodes h
  refine ⟨index + i, Nat.le_add_right _ _, below, ?_⟩
  rw [hpath]
  simp [NodePath.child]

theorem mem_preorderItems_of_getElem? {path : NodePath} {index i : Nat} {nodes : List Node}
    {child : Node} {visit : Visit} (hchild : nodes[i]? = some child)
    (h : visit ∈ child.preorder (path.child (index + i))) :
    visit ∈ preorderItems path index nodes := by
  induction nodes generalizing index i with
  | nil => cases hchild
  | cons node nodes ih =>
    rw [preorderItems, List.mem_append]
    cases i with
    | zero =>
      obtain rfl : node = child := by simpa using hchild
      exact .inl h
    | succ i =>
      have hrest : nodes[i]? = some child := by simpa using hchild
      refine .inr (ih hrest ?_)
      rwa [← NodePath.child_add_succ]

/-- Every node of a tree is listed, with the position that leads to it. -/
theorem mem_preorder_of_at? {node target : Node} {below : NodePath}
    (h : node.at? below = some target) (path : NodePath) :
    (path ++ below, target.type) ∈ node.preorder path := by
  induction below generalizing node path with
  | nil =>
    obtain rfl : node = target := by simpa [at?] using h
    obtain ⟨type, props, children⟩ := node
    simp [preorder]
  | cons i below ih =>
    obtain ⟨type, props, children⟩ := node
    obtain ⟨child, hchild, hat⟩ := at?_cons_eq_some_iff.1 h
    cases children with
    | none => cases hchild
    | leaf _ => cases hchild
    | nodes nodes =>
      have hmem := ih hat (path.child i)
      rw [NodePath.child, List.append_assoc] at hmem
      rw [preorder, preorderBelow]
      refine List.mem_cons_of_mem _ (mem_preorderItems_of_getElem? hchild ?_)
      rwa [Nat.zero_add]

end Node

end UiTemplate
