import UiTemplate.Proofs.Build.Steps
import UiTemplate.Proofs.Template.Positions

/-!
Which builds succeed, and in which order constructors are called. Types are
looked up on the way down and constructors are called on the way up, so two
orders of the tree meet here: the first unknown type in pre-order decides how a
build ends, and the calls are made in post-order. A build that fails has called
the constructors of just those nodes that it had left behind: the ones before
the fault that are not above it.
-/

namespace UiTemplate.Interpreter

variable {E : Type}

def Knows (interpreter : Interpreter E) (visits : List Visit) : Prop :=
  ∀ visit ∈ visits, interpreter.registry.contains visit.2 = true

theorem knows_append {interpreter : Interpreter E} {left right : List Visit} :
    interpreter.Knows (left ++ right) ↔ interpreter.Knows left ∧ interpreter.Knows right :=
  List.forall_mem_append

theorem knows_cons {interpreter : Interpreter E} {visit : Visit} {visits : List Visit} :
    interpreter.Knows (visit :: visits) ↔
      interpreter.registry.contains visit.2 = true ∧ interpreter.Knows visits :=
  List.forall_mem_cons

/-- The first node in pre-order whose type is not known. -/
def firstUnknown? (interpreter : Interpreter E) (node : Node) : Option Visit :=
  (node.preorder .root).find? fun visit => !interpreter.registry.contains visit.2

/-- The listed nodes are all nodes there are. -/
theorem knows_preorder_iff {interpreter : Interpreter E} {node : Node} :
    interpreter.Knows (node.preorder .root) ↔
      ∀ path target, node.at? path = some target →
        interpreter.registry.contains target.type = true := by
  constructor
  · intro h path target hat
    exact h _ (Node.mem_preorder_of_at? hat .root)
  · intro h visit hvisit
    obtain ⟨path, _, hat⟩ := Node.at?_of_mem_preorder .root node hvisit
    obtain ⟨target, htarget, htype⟩ := Option.map_eq_some_iff.1 hat
    rw [← htype]
    exact h path target htarget

/-- Whether a node has been left behind on the way to a position, when the nodes
met on the way are the given ones. -/
def leftBehind (met : List Visit) (position : NodePath) (visit : Visit) : Bool :=
  decide (visit ∈ met ∧ ¬ visit.1 <+: position)

mutual

/-- A tree of known types is built, and the calls are made in post-order. -/
theorem buildAt_of_knows (interpreter : Interpreter E) : (path : NodePath) → (node : Node) →
    interpreter.Knows (node.preorder path) →
    ∃ element, interpreter.buildAt path node = ⟨node.postorder path, .ok element⟩
  | path, ⟨type, props, children⟩, h => by
    rw [Node.preorder, knows_cons] at h
    obtain ⟨htype, hbelow⟩ := h
    obtain ⟨constructor, hget⟩ := Option.isSome_iff_exists.1 htype
    obtain ⟨content, hcontent⟩ := buildContent_of_knows interpreter path children hbelow
    refine ⟨constructor (interpreter.props path props) content, ?_⟩
    rw [buildAt_of_get? hget, hcontent, Build.andThen_of_ok rfl, Node.postorder]

theorem buildContent_of_knows (interpreter : Interpreter E) : (path : NodePath) →
    (children : Children) → interpreter.Knows (Node.preorderBelow path children) →
    ∃ content, interpreter.buildContent path children =
      ⟨Node.postorderBelow path children, .ok content⟩
  | _, .none, _ => ⟨.empty, rfl⟩
  | _, .leaf value, _ => ⟨.leaf (bindLeaf interpreter.context value), rfl⟩
  | path, .nodes nodes, h => by
    obtain ⟨elements, hitems⟩ := buildItems_of_knows interpreter path 0 nodes h
    refine ⟨if nodes.isEmpty then .empty else .elements elements, ?_⟩
    rw [buildContent_nodes, hitems, Build.andThen_of_ok rfl, Node.postorderBelow]
    simp only [Build.done, List.append_nil]

theorem buildItems_of_knows (interpreter : Interpreter E) : (path : NodePath) → (index : Nat) →
    (nodes : List Node) → interpreter.Knows (Node.preorderItems path index nodes) →
    ∃ elements, interpreter.buildItems path index nodes =
      ⟨Node.postorderItems path index nodes, .ok elements⟩
  | _, _, [], _ => ⟨[], rfl⟩
  | path, index, node :: nodes, h => by
    rw [Node.preorderItems, knows_append] at h
    obtain ⟨hnode, hnodes⟩ := h
    obtain ⟨element, hfirst⟩ := buildAt_of_knows interpreter (path.child index) node hnode
    obtain ⟨elements, hothers⟩ := buildItems_of_knows interpreter path (index + 1) nodes hnodes
    refine ⟨element :: elements, ?_⟩
    rw [buildItems, hfirst, Build.andThen_of_ok rfl, hothers, Build.andThen_of_ok rfl,
      Node.postorderItems]
    simp only [Build.done, List.append_nil]

end

/-- Above a fault in a later child nothing of an earlier child is found. -/
theorem filter_leftBehind_earlier {path position : NodePath} {index : Nat} {node : Node}
    {met : List Visit} (hmet : ∀ visit ∈ node.preorder (path.child index), visit ∈ met)
    (hposition : ∃ i, index < i ∧ path.child i <+: position) :
    (node.postorder (path.child index)).filter (leftBehind met position) =
      node.postorder (path.child index) := by
  rw [List.filter_eq_self]
  intro visit hvisit
  have hpre := (Node.postorder_perm _ node).mem_iff.1 hvisit
  have hbelow := Node.isPrefix_of_mem_preorder hpre
  have habove : ¬ visit.1 <+: position := by
    intro hprefix
    obtain ⟨i, hlt, hi⟩ := hposition
    have := NodePath.index_eq_of_child_isPrefix (hbelow.trans hprefix) hi
    omega
  simp [leftBehind, hmet visit hpre, habove]

/-- What has been met in an earlier child does not occur in the later ones. -/
theorem filter_leftBehind_later {path : NodePath} {index : Nat} {met : List Visit}
    (hmet : ∀ visit ∈ met, path.child index <+: visit.1) (nodes : List Node)
    (others : List Visit) (position : NodePath) :
    (Node.postorderItems path (index + 1) nodes).filter (leftBehind (met ++ others) position) =
      (Node.postorderItems path (index + 1) nodes).filter (leftBehind others position) := by
  apply List.filter_congr
  intro visit hvisit
  have hpre := (Node.postorderItems_perm _ _ nodes).mem_iff.1 hvisit
  obtain ⟨i, hle, hi⟩ := Node.isPrefix_of_mem_preorderItems hpre
  have hnot : visit ∉ met := by
    intro h
    have := NodePath.index_eq_of_child_isPrefix (hmet visit h) hi
    omega
  simp [leftBehind, hnot]

theorem filter_leftBehind_nil (visits : List Visit) (position : NodePath) :
    visits.filter (leftBehind [] position) = [] := by
  simp [leftBehind]

/-- The node itself is not below itself, and it stays above whatever is. -/
theorem filter_leftBehind_node {path position : NodePath} {type : String} {children : Children}
    {met : List Visit} (hposition : path <+: position) :
    (Node.postorderBelow path children ++ [(path, type)]).filter
        (leftBehind ((path, type) :: met) position) =
      (Node.postorderBelow path children).filter (leftBehind met position) := by
  rw [List.filter_append]
  have hself : [(path, type)].filter (leftBehind ((path, type) :: met) position) = [] := by
    simp [leftBehind, hposition]
  rw [hself, List.append_nil]
  apply List.filter_congr
  intro visit hvisit
  have hne : visit ≠ (path, type) := by
    rintro rfl
    cases children with
    | none => cases hvisit
    | leaf _ => cases hvisit
    | nodes nodes =>
      have hpre := (Node.postorderItems_perm _ _ nodes).mem_iff.1 hvisit
      obtain ⟨i, _, hi⟩ := Node.isPrefix_of_mem_preorderItems hpre
      have hlength := hi.length_le
      simp only [NodePath.child, List.length_append, List.length_cons, List.length_nil] at hlength
      omega
  simp [leftBehind, hne]

/-- A place in one of two lists put together is a place in one of them. -/
theorem split_append {left right front back : List Visit} {visit : Visit}
    (h : left ++ right = front ++ visit :: back) :
    (∃ rest, left = front ++ visit :: rest) ∨
      ∃ rest, front = left ++ rest ∧ right = rest ++ visit :: back := by
  rcases List.append_eq_append_iff.1 h with ⟨rest, hfront, hright⟩ | ⟨rest, hleft, hback⟩
  · exact .inr ⟨rest, hfront, hright⟩
  · cases rest with
    | nil => exact .inr ⟨[], by simpa using hleft.symm, by simpa using hback.symm⟩
    | cons first rest =>
      obtain ⟨rfl, _⟩ := List.cons.inj hback
      exact .inl ⟨rest, hleft⟩

mutual

/-- A build ends at the first unknown type in pre-order, and the calls made by
then are those of the nodes left behind. -/
theorem buildAt_of_first (interpreter : Interpreter E) : (path : NodePath) → (node : Node) →
    {met later : List Visit} → {position : NodePath} → {type : String} →
    node.preorder path = met ++ (position, type) :: later → interpreter.Knows met →
    interpreter.registry.get? type = none →
    interpreter.buildAt path node =
      ⟨(node.postorder path).filter (leftBehind met position),
        .error (.unknownType type position)⟩
  | path, ⟨nodeType, props, children⟩, met, later, position, type, hpre, hmet, htype => by
    have hposition : path <+: position := by
      have hmem : (position, type) ∈ Node.preorder path ⟨nodeType, props, children⟩ := by
        simp [hpre]
      exact Node.isPrefix_of_mem_preorder hmem
    rw [Node.preorder] at hpre
    cases met with
    | nil =>
      -- The node itself is the first of an unknown type
      obtain ⟨hself, _⟩ := List.cons.inj hpre
      cases hself
      rw [buildAt_of_get?_eq_none htype, filter_leftBehind_nil]
      rfl
    | cons visit met =>
      obtain ⟨rfl, hbelow⟩ := List.cons.inj hpre
      obtain ⟨hself, hmet⟩ := knows_cons.1 hmet
      obtain ⟨constructor, hget⟩ := Option.isSome_iff_exists.1 hself
      have hcontent := buildContent_of_first interpreter path children hbelow hmet htype
      rw [buildAt_of_get? hget, hcontent, Build.andThen_of_error rfl, Node.postorder,
        filter_leftBehind_node hposition]

theorem buildContent_of_first (interpreter : Interpreter E) : (path : NodePath) →
    (children : Children) → {met later : List Visit} → {position : NodePath} → {type : String} →
    Node.preorderBelow path children = met ++ (position, type) :: later →
    interpreter.Knows met → interpreter.registry.get? type = none →
    interpreter.buildContent path children =
      ⟨(Node.postorderBelow path children).filter (leftBehind met position),
        .error (.unknownType type position)⟩
  | _, .none, _, _, _, _, hpre, _, _ => by simp [Node.preorderBelow] at hpre
  | _, .leaf _, _, _, _, _, hpre, _, _ => by simp [Node.preorderBelow] at hpre
  | path, .nodes nodes, _, _, _, _, hpre, hmet, htype => by
    have hitems := buildItems_of_first interpreter path 0 nodes hpre hmet htype
    rw [buildContent_nodes, hitems, Build.andThen_of_error rfl, Node.postorderBelow]

theorem buildItems_of_first (interpreter : Interpreter E) : (path : NodePath) → (index : Nat) →
    (nodes : List Node) → {met later : List Visit} → {position : NodePath} → {type : String} →
    Node.preorderItems path index nodes = met ++ (position, type) :: later →
    interpreter.Knows met → interpreter.registry.get? type = none →
    interpreter.buildItems path index nodes =
      ⟨(Node.postorderItems path index nodes).filter (leftBehind met position),
        .error (.unknownType type position)⟩
  | _, _, [], _, _, _, _, hpre, _, _ => by simp [Node.preorderItems] at hpre
  | path, index, node :: nodes, met, later, position, type, hpre, hmet, htype => by
    rw [Node.preorderItems] at hpre
    rw [buildItems, Node.postorderItems, List.filter_append]
    rcases split_append hpre with ⟨rest, hnode⟩ | ⟨rest, rfl, hnodes⟩
    · -- The fault is in the first child; nothing of the later ones has been met
      have hfirst := buildAt_of_first interpreter (path.child index) node hnode hmet htype
      have hchild : ∀ visit ∈ met, path.child index <+: visit.1 := by
        intro visit hvisit
        have hmem : visit ∈ node.preorder (path.child index) := by
          rw [hnode]
          exact List.mem_append_left _ hvisit
        exact Node.isPrefix_of_mem_preorder hmem
      have hlater := filter_leftBehind_later hchild nodes [] position
      rw [List.append_nil, filter_leftBehind_nil] at hlater
      rw [hfirst, Build.andThen_of_error rfl, hlater, List.append_nil]
    · -- The first child is built, and the fault is in one of the others
      obtain ⟨hknown, hrest⟩ := knows_append.1 hmet
      obtain ⟨element, hfirst⟩ := buildAt_of_knows interpreter (path.child index) node hknown
      have hothers := buildItems_of_first interpreter path (index + 1) nodes hnodes hrest htype
      have hposition : ∃ i, index < i ∧ path.child i <+: position := by
        have hmem : (position, type) ∈ Node.preorderItems path (index + 1) nodes := by
          simp [hnodes]
        exact Node.isPrefix_of_mem_preorderItems hmem
      have hchild : ∀ visit ∈ node.preorder (path.child index), path.child index <+: visit.1 :=
        fun visit hvisit => Node.isPrefix_of_mem_preorder hvisit
      rw [hfirst, Build.andThen_of_ok rfl, hothers, Build.andThen_of_error rfl,
        filter_leftBehind_earlier (fun visit h => List.mem_append_left _ h) hposition,
        filter_leftBehind_later hchild]

end

theorem takeWhile_ne_append {met later : List Visit} {visit : Visit} (h : visit ∉ met) :
    (met ++ visit :: later).takeWhile (· != visit) = met := by
  have hall : ∀ other ∈ met, (other != visit) = true := fun other hother => by
    simpa using ne_of_mem_of_not_mem hother h
  rw [List.takeWhile_append_of_pos hall]
  simp

/-- A build with a first unknown type ends there. -/
theorem build_of_firstUnknown? {interpreter : Interpreter E} {node : Node} {path : NodePath}
    {type : String} (h : interpreter.firstUnknown? node = some (path, type)) :
    interpreter.build node =
      ⟨(node.postorder .root).filter (leftBehind (node.before (path, type)) path),
        .error (.unknownType type path)⟩ := by
  obtain ⟨hunknown, met, later, hpre, hknown⟩ := List.find?_eq_some_iff_append.1 h
  have hmet : interpreter.Knows met := fun visit hvisit => by simpa using hknown visit hvisit
  have htype : interpreter.registry.get? type = none := by
    simpa [Registry.contains] using hunknown
  have hnot : (path, type) ∉ met := by
    intro hmem
    simpa [Registry.contains, htype] using hmet _ hmem
  rw [Node.before, hpre, takeWhile_ne_append hnot]
  exact buildAt_of_first interpreter .root node hpre hmet htype

/-- There is no first unknown type exactly if all the types in the tree are known. -/
theorem firstUnknown?_eq_none_iff {interpreter : Interpreter E} {node : Node} :
    interpreter.firstUnknown? node = none ↔
      ∀ path target, node.at? path = some target →
        interpreter.registry.contains target.type = true := by
  rw [← knows_preorder_iff, firstUnknown?, List.find?_eq_none]
  simp only [Knows, Bool.not_eq_true', Bool.not_eq_false]

/-- A tree of known types is built. -/
theorem exists_ok_of_firstUnknown?_eq_none {interpreter : Interpreter E} {node : Node}
    (h : interpreter.firstUnknown? node = none) :
    ∃ element, (interpreter.build node).result = .ok element := by
  have hknown : interpreter.Knows (node.preorder .root) := by
    simpa [firstUnknown?, Knows] using h
  obtain ⟨element, hbuild⟩ := buildAt_of_knows interpreter .root node hknown
  exact ⟨element, congrArg Build.result hbuild⟩

/-- Whether a build succeeds, and if not how it fails, depends on nothing but the
types that are known. -/
theorem result_eq_error_iff {interpreter : Interpreter E} {node : Node} {error : BuildError} :
    (interpreter.build node).result = .error error ↔
      ∃ path type, interpreter.firstUnknown? node = some (path, type) ∧
        error = .unknownType type path := by
  cases hfirst : interpreter.firstUnknown? node with
  | none =>
    obtain ⟨element, hbuild⟩ := exists_ok_of_firstUnknown?_eq_none hfirst
    simp [hbuild]
  | some first =>
    obtain ⟨path, type⟩ := first
    rw [build_of_firstUnknown? hfirst]
    constructor
    · intro h
      exact ⟨path, type, rfl, (Except.error.inj h).symm⟩
    · rintro ⟨path', type', hpair, rfl⟩
      cases hpair
      rfl

/-- A node of an unknown type is the first one exactly if all types before it are
known. -/
theorem firstUnknown?_eq_some_iff {interpreter : Interpreter E} {node : Node} {visit : Visit}
    (hmem : visit ∈ node.preorder .root)
    (hunknown : interpreter.registry.contains visit.2 = false) :
    interpreter.firstUnknown? node = some visit ↔ interpreter.Knows (node.before visit) := by
  constructor
  · intro h
    obtain ⟨_, met, later, hpre, hmet⟩ := List.find?_eq_some_iff_append.1 h
    have hknown : interpreter.Knows met := fun other hother => by simpa using hmet other hother
    have hnot : visit ∉ met := by
      intro hvisit
      simpa [hunknown] using hknown visit hvisit
    rwa [Node.before, hpre, takeWhile_ne_append hnot]
  · intro h
    obtain ⟨met, later, hpre, hnot⟩ := List.eq_append_cons_of_mem hmem
    rw [Node.before, hpre, takeWhile_ne_append hnot] at h
    refine List.find?_eq_some_iff_append.2 ⟨by simp [hunknown], met, later, hpre, ?_⟩
    intro other hother
    simp [h other hother]

/-- Two nodes are not at one position, so among the nodes before a node those
that do not lead to it are those not above it. -/
theorem leftBehind_before {node : Node} {path : NodePath} {type : String}
    (h : (path, type) ∈ node.preorder .root) (visit : Visit) :
    leftBehind (node.before (path, type)) path visit =
      decide (visit ∈ node.before (path, type) ∧ ¬ visit.1.IsAbove path) := by
  apply decide_eq_decide.2
  apply and_congr_right
  intro hbefore
  have hne : visit.1 ≠ path := by
    intro heq
    have hvisit : visit ∈ node.preorder .root := (List.takeWhile_subset _) hbefore
    have htype : visit.2 = type := by
      apply Option.some.inj
      rw [← Node.at?_of_mem_root hvisit, ← Node.at?_of_mem_root h, heq]
    have hpair : visit = (path, type) := Prod.ext heq htype
    have hother := List.all_eq_true.1 List.all_takeWhile visit hbefore
    simp [hpair] at hother
  simp [NodePath.IsAbove, hne]

/-- A template is built exactly when all its types are known, whatever the
context holds. Then every constructor is called once for every node of its type,
in post-order. Otherwise the error names the first node in pre-order whose type
is unknown and the position that leads to it, and the calls made are those of
the nodes before it in pre-order that are not above it, still in post-order. -/
theorem build_outcome (interpreter : Interpreter E) (node : Node) :
    ((∃ element, (interpreter.build node).result = .ok element) ↔
      ∀ path target, node.at? path = some target →
        interpreter.registry.contains target.type = true) ∧
    ((∃ element, (interpreter.build node).result = .ok element) →
      (interpreter.build node).called = node.postorder .root ∧
        (interpreter.build node).called.length = node.count) ∧
    ((¬ ∃ element, (interpreter.build node).result = .ok element) →
      ∃ path type, interpreter.firstUnknown? node = some (path, type) ∧
        (interpreter.build node).result = .error (.unknownType type path) ∧
        (node.at? path).map Node.type = some type ∧
        (interpreter.build node).called = (node.postorder .root).filter fun visit =>
          decide (visit ∈ node.before (path, type) ∧ ¬ visit.1.IsAbove path)) := by
  cases hfirst : interpreter.firstUnknown? node with
  | none =>
    have hknown : interpreter.Knows (node.preorder .root) := by
      simpa [firstUnknown?, Knows] using hfirst
    obtain ⟨element, hbuild⟩ := buildAt_of_knows interpreter .root node hknown
    have hcalled : (interpreter.build node).called = node.postorder .root :=
      congrArg Build.called hbuild
    have hok : ∃ element, (interpreter.build node).result = .ok element :=
      ⟨element, congrArg Build.result hbuild⟩
    refine ⟨⟨fun _ => knows_preorder_iff.1 hknown, fun _ => hok⟩, ?_, fun h => absurd hok h⟩
    intro _
    refine ⟨hcalled, ?_⟩
    rw [hcalled, (Node.postorder_perm .root node).length_eq, Node.length_preorder]
  | some first =>
    obtain ⟨path, type⟩ := first
    have hbuild := build_of_firstUnknown? hfirst
    have hfail : ¬ ∃ element, (interpreter.build node).result = .ok element := by
      rw [hbuild]
      rintro ⟨element, hresult⟩
      cases hresult
    have hmem : (path, type) ∈ node.preorder .root := List.mem_of_find?_eq_some hfirst
    have hat := Node.at?_of_mem_root hmem
    have hunknown : ¬ interpreter.registry.contains type = true := by
      simpa using List.find?_some hfirst
    refine ⟨⟨fun h => absurd h hfail, ?_⟩, fun h => absurd h hfail, fun _ => ?_⟩
    · intro hall
      obtain ⟨target, htarget, htype⟩ := Option.map_eq_some_iff.1 hat
      have hknown := hall path target htarget
      rw [htype] at hknown
      exact absurd hknown hunknown
    · refine ⟨path, type, rfl, congrArg Build.result hbuild, hat, ?_⟩
      rw [hbuild]
      exact List.filter_congr fun visit _ => leftBehind_before hmem visit

/-- Groups and labels, of which only the number counts. -/
def counting : Interpreter Nat where
  context := .empty
  registry := ((Registry.empty.register "Label" fun _ _ => 1).register "Group" fun _ content =>
    match content with
    | .elements items => items.foldl Nat.add 1
    | _ => 1)

/-- A label and a group, in which a node of the given type is between labels. -/
def card (type : String) : Node :=
  let inner := (((Node.ofType "Group").withChild (.ofType "Label")).withChild
    (.ofType type)).withChild (.ofType "Label")
  ((Node.ofType "Group").withChild (.ofType "Label")).withChild inner

/-- Past the unknown type nothing is called, neither the label behind it nor the groups
around it. -/
theorem build_outcome_card :
    (∃ element, (counting.build (card "Label")).result = .ok element) ∧
      (counting.build (card "Label")).called.length = 6 ∧
      (¬ ∃ element, (counting.build (card "Nope")).result = .ok element) ∧
      (counting.build (card "Nope")).called = [([0], "Label"), ([1, 0], "Label")] := by
  have hok : ∃ element, (counting.build (card "Label")).result = .ok element := ⟨6, rfl⟩
  have hfail : ¬ ∃ element, (counting.build (card "Nope")).result = .ok element := by
    rintro ⟨element, h⟩
    cases h
  obtain ⟨path, type, hfirst, _, _, hcalled⟩ := (build_outcome counting (card "Nope")).2.2 hfail
  have hfault : counting.firstUnknown? (card "Nope") = some ([1, 1], "Nope") := rfl
  rw [hfault] at hfirst
  cases hfirst
  exact ⟨hok, ((build_outcome counting (card "Label")).2.1 hok).2, hfail, hcalled⟩

end UiTemplate.Interpreter
