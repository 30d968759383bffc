import UiTemplate.Proofs.Build.Keys
import UiTemplate.Proofs.Template.Keys

/-!
Building a part of a template on its own. A build goes down with nothing but the
position, and the position is used for keys and in errors only. So what a build
makes of the tree at a position is what comes of that tree alone, up to the
beginnings of the keys that are made from positions; and a type that is missing
in a part is missing in the whole.
-/

namespace UiTemplate.Interpreter

variable {E : Type} {interpreter : Interpreter E} {view : View E}

mutual

/-- Without keys it does not matter where a node is. -/
theorem result_buildAt_of_none (hkeys : interpreter.options.keys = .none) : (node : Node) →
    {path other : NodePath} → {element : E} →
    (interpreter.buildAt path node).result = .ok element →
    (interpreter.buildAt other node).result = .ok element
  | ⟨type, props, children⟩, path, other, _, h => by
    obtain ⟨constructor, content, hget, hcontent, rfl⟩ := result_buildAt_eq_ok_iff.1 h
    have hprops := props_of_none hkeys ⟨type, props, children⟩
    refine result_buildAt_eq_ok_iff.2 ⟨constructor, content, hget,
      result_buildContent_of_none hkeys children hcontent, ?_⟩
    rw [hprops path, hprops other]

theorem result_buildContent_of_none (hkeys : interpreter.options.keys = .none) :
    (children : Children) → {path other : NodePath} → {content : Content E} →
    (interpreter.buildContent path children).result = .ok content →
    (interpreter.buildContent other children).result = .ok content
  | .none, _, _, _, h => h
  | .leaf _, _, _, _, h => h
  | .nodes nodes, _, _, _, h => by
    rw [buildContent_nodes, Build.result_andThen_eq_ok_iff] at h ⊢
    obtain ⟨elements, hitems, hcontent⟩ := h
    exact ⟨elements, result_buildItems_of_none hkeys nodes hitems, hcontent⟩

theorem result_buildItems_of_none (hkeys : interpreter.options.keys = .none) :
    (nodes : List Node) → {path other : NodePath} → {index : Nat} → {elements : List E} →
    (interpreter.buildItems path index nodes).result = .ok elements →
    (interpreter.buildItems other index nodes).result = .ok elements
  | [], _, _, _, _, h => h
  | node :: nodes, _, _, _, _, h => by
    obtain ⟨first, others, hfirst, hothers, rfl⟩ := result_buildItems_cons_eq_ok_iff.1 h
    exact result_buildItems_cons_eq_ok_iff.2 ⟨first, others, result_buildAt_of_none hkeys node hfirst,
      result_buildItems_of_none hkeys nodes hothers, rfl⟩

end

/-- What one node becomes in a build of a whole template and in one of a part of
it, when the part is at `position` in the whole. A key that is assigned begins
with the key of the root in one and with that of the position in the other;
everything else is the same. -/
structure Rebased (interpreter : Interpreter E) (view : View E) (position : NodePath)
    (node : Node) (inWhole alone : E) : Prop
    extends SameButKey interpreter view node inWhole alone where
  assigned : interpreter.boundKey? node = none →
    ∃ rest, Fields.get? interpreter.options.keyProp (view.props alone) =
        some (.string ("0" ++ rest)) ∧
      view.props inWhole = Fields.insert interpreter.options.keyProp
        (.string (position.key ++ rest)) (view.props alone)

/-- Between a subtree alone and the same in its place the assigned keys move,
and no others. -/
theorem rebased_of_buildAt (hkeeps : interpreter.registry.Keeps view)
    (hkeys : interpreter.options.keys = .treePath) {position path : NodePath} {node : Node}
    {inWhole alone : E} (hwhole : (interpreter.buildAt (position ++ path) node).result = .ok inWhole)
    (halone : (interpreter.buildAt path node).result = .ok alone) :
    interpreter.Rebased view position node inWhole alone := by
  obtain ⟨_, hprops, _⟩ := view_of_buildAt hkeeps hwhole
  obtain ⟨_, hprops', _⟩ := view_of_buildAt hkeeps halone
  have hassigned (here : NodePath) : interpreter.assignedKey? here = some here.key := by
    rw [assignedKey?, hkeys]
  refine ⟨sameButKey_of_buildAt hkeeps hwhole halone, ?_⟩
  intro hbound
  refine ⟨String.ofList path.steps, ?_, ?_⟩
  · rw [hprops', get?_props_of_assignedKey? hbound (hassigned path), ← NodePath.key_eq_zero_append]
  · rw [hprops, hprops', props_of_boundKey?_eq_none hbound, props_of_boundKey?_eq_none hbound,
      hassigned, hassigned, Fields.insert_insert_self, ← NodePath.key_append]

section

variable {node part : Node} {position path : NodePath} {type : String}
  (hat : node.at? position = some part)
  (hfirst : interpreter.firstUnknown? part = some (path, type))
include hat hfirst

/-- A type that is unknown in a part is unknown in the whole, further down. -/
theorem mem_preorder_of_firstUnknown? : (position ++ path, type) ∈ node.preorder .root ∧
    interpreter.registry.contains type = false := by
  have hmem : (path, type) ∈ part.preorder .root := List.mem_of_find?_eq_some hfirst
  obtain ⟨target, htarget, htype⟩ := Option.map_eq_some_iff.1 (Node.at?_of_mem_root hmem)
  have hwhole : node.at? (position ++ path) = some target := by
    rw [Node.at?_append, hat, Option.bind_some, htarget]
  have hlisted := Node.mem_preorder_of_at? hwhole .root
  rw [htype] at hlisted
  exact ⟨hlisted, by simpa using List.find?_some hfirst⟩

/-- A tree with an unknown type in a part of it has a first one. -/
theorem exists_firstUnknown?_of_part : ∃ visit, interpreter.firstUnknown? node = some visit := by
  obtain ⟨hmem, hunknown⟩ := mem_preorder_of_firstUnknown? hat hfirst
  cases hnode : interpreter.firstUnknown? node with
  | none =>
    have hknown := List.find?_eq_none.1 hnode _ hmem
    simp [hunknown] at hknown
  | some visit => exact ⟨visit, rfl⟩

/-- The fault of a part is that of the whole if nothing before it is at fault. -/
theorem result_of_firstUnknown?_of_part :
    (interpreter.build node).result = .error (.unknownType type (position ++ path)) ↔
      interpreter.Knows (node.before (position ++ path, type)) := by
  obtain ⟨hmem, hunknown⟩ := mem_preorder_of_firstUnknown? hat hfirst
  rw [← firstUnknown?_eq_some_iff hmem hunknown, result_eq_error_iff]
  constructor
  · rintro ⟨_, _, hnode, hsame⟩
    cases hsame
    exact hnode
  · intro hnode
    exact ⟨_, _, hnode, rfl⟩

end

/-- A part of a tree that can be built can be built alone. -/
theorem exists_ok_of_part {node part : Node} {position : NodePath} {whole : E}
    (hat : node.at? position = some part) (hwhole : (interpreter.build node).result = .ok whole) :
    ∃ alone, (interpreter.build part).result = .ok alone := by
  cases hfirst : interpreter.firstUnknown? part with
  | none => exact exists_ok_of_firstUnknown?_eq_none hfirst
  | some fault =>
    obtain ⟨visit, hnode⟩ := exists_firstUnknown?_of_part hat hfirst
    have herror := result_eq_error_iff.2 ⟨visit.1, visit.2, hnode, rfl⟩
    rw [hwhole] at herror
    cases herror

/-- In a build that succeeds, the element at a position is what the tree at that
position is built into alone: the same without keys, and with keys from positions
the same up to the beginnings of these keys. Keys that nodes bind themselves do not
change with any strategy. If the tree at a position cannot be built alone, the
template cannot be built, and the position of the fault is the one in the part,
seen from the root, exactly if there is no other fault before it. -/
theorem subtrees_build_alone (interpreter : Interpreter E) {view : View E}
    (hkeeps : interpreter.registry.Keeps view) {node part : Node} {position : NodePath}
    (hat : node.at? position = some part) :
    (∀ whole, (interpreter.build node).result = .ok whole →
      ∃ inWhole alone, view.at? whole position = some inWhole ∧
        (interpreter.build part).result = .ok alone ∧
        view.Pointwise (interpreter.SameButKey view) part inWhole alone ∧
        (interpreter.options.keys = .none → inWhole = alone) ∧
        (interpreter.options.keys = .treePath →
          view.Pointwise (interpreter.Rebased view position) part inWhole alone)) ∧
    ∀ type path, (interpreter.build part).result = .error (.unknownType type path) →
      (∃ type' path', (interpreter.build node).result = .error (.unknownType type' path')) ∧
      ((interpreter.build node).result = .error (.unknownType type (position ++ path)) ↔
        interpreter.Knows (node.before (position ++ path, type))) := by
  refine ⟨?_, ?_⟩
  · intro whole hwhole
    obtain ⟨inWhole, hinWhole, hbuild⟩ := at?_of_buildAt hkeeps hwhole hat
    obtain ⟨alone, halone⟩ := exists_ok_of_part hat hwhole
    refine ⟨inWhole, alone, hinWhole, halone, ?_, ?_, ?_⟩
    · apply pointwise_of_buildAt hkeeps hkeeps hbuild halone
      intro below target x y _ hx hy
      exact sameButKey_of_buildAt hkeeps hx hy
    · intro hkeys
      have hmoved : (interpreter.build part).result = .ok inWhole :=
        result_buildAt_of_none hkeys part hbuild
      rw [halone] at hmoved
      exact (Except.ok.inj hmoved).symm
    · intro hkeys
      apply pointwise_of_buildAt hkeeps hkeeps hbuild halone
      intro below target x y _ hx hy
      exact rebased_of_buildAt hkeeps hkeys hx hy
  · intro type path herror
    obtain ⟨_, _, hfirst, hfault⟩ := result_eq_error_iff.1 herror
    cases hfault
    obtain ⟨visit, hnode⟩ := exists_firstUnknown?_of_part hat hfirst
    exact ⟨⟨visit.2, visit.1, result_eq_error_iff.2 ⟨_, _, hnode, rfl⟩⟩,
      result_of_firstUnknown?_of_part hat hfirst⟩

/-- A label and after it a group with a label that has a key. -/
def beside : Node :=
  ((Node.ofType "Group").withChild (.ofType "Label")).withChild ownKey

/-- The group counts as a root on its own and as a second child in the whole; the label's
own key is the same in both. -/
theorem subtrees_build_alone_beside :
    naming.planned.registry.Keeps Plan.view ∧ beside.at? [1] = some ownKey ∧
      (∃ whole inWhole alone : Plan, (naming.planned.build beside).result = .ok whole ∧
        Plan.view.at? whole [1] = some inWhole ∧
        (naming.planned.build ownKey).result = .ok alone ∧
        Plan.view.Pointwise (naming.planned.Rebased Plan.view [1]) ownKey inWhole alone ∧
        alone.key? "key" [] = some (.string "0") ∧ inWhole.key? "key" [] = some (.string "0.1") ∧
        alone.key? "key" [0] = some (.string "0") ∧ inWhole.key? "key" [0] = some (.string "0")) ∧
      (naming.planned.build (card "Nope")).result =
        .error (.unknownType "Nope" ([1] ++ [1])) := by
  have hkeeps : naming.planned.registry.Keeps Plan.view := naming.registry.keeps_planned
  have hat : beside.at? [1] = some ownKey := rfl
  refine ⟨hkeeps, hat, ?_, ?_⟩
  · obtain ⟨hparts, _⟩ := subtrees_build_alone naming.planned hkeeps hat
    obtain ⟨inWhole, alone, hinWhole, halone, _, _, hrebased⟩ := hparts _ rfl
    refine ⟨_, inWhole, alone, rfl, hinWhole, halone, hrebased rfl, ?_⟩
    cases hinWhole
    cases halone
    exact ⟨rfl, rfl, rfl, rfl⟩
  · have hgroup : ∃ part, (card "Nope").at? [1] = some part := ⟨_, rfl⟩
    obtain ⟨part, hpart⟩ := hgroup
    have hfault : (naming.planned.build part).result = .error (.unknownType "Nope" [1]) := by
      cases hpart
      rfl
    obtain ⟨_, hfails⟩ := subtrees_build_alone naming.planned hkeeps hpart
    have hknown : ((card "Nope").before ([1] ++ [1], "Nope")).all
        (fun visit => naming.planned.registry.contains visit.2) = true := by
      decide
    exact (hfails _ _ hfault).2.2 (List.all_eq_true.1 hknown)

end UiTemplate.Interpreter
