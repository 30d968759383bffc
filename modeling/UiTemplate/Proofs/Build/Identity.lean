import UiTemplate.Proofs.Build.Keys
import UiTemplate.Proofs.Template.Keys

/-!
Keys from positions tell nodes apart. If no node of a template binds a key
itself, every constructor is called with the key of its node's position, and
from two keys alone one can tell whether they belong to one node and whether one
of the nodes is above the other.
-/

namespace UiTemplate

namespace Interpreter

variable {E : Type} {interpreter : Interpreter E} {node : Node}

/-- Without keys of the template's own, the key at a position is that of its path. -/
theorem plan_key? {plan : Plan} (hkeys : interpreter.options.keys = .treePath)
    (hfree : ∀ path target, node.at? path = some target → interpreter.boundKey? target = none)
    (hplan : (interpreter.planned.build node).result = .ok plan) (path : NodePath) :
    plan.key? interpreter.options.keyProp path =
      (node.at? path).map fun _ => .string path.key := by
  have hkeeps : interpreter.planned.registry.Keeps Plan.view := interpreter.registry.keeps_planned
  rw [Plan.key?]
  cases hat : node.at? path with
  | none => rw [at?_of_buildAt_of_none hkeeps hplan hat, Option.bind_none, Option.map_none]
  | some target =>
    obtain ⟨part, hpart, hbuild⟩ := at?_of_buildAt hkeeps hplan hat
    obtain ⟨_, hprops, _⟩ := view_of_buildAt hkeeps hbuild
    have hassigned : interpreter.assignedKey? path = some path.key := by
      rw [assignedKey?, hkeys]
    have hkey := get?_props_of_assignedKey? (hfree path target hat) hassigned
    rw [hpart, Option.bind_some, Option.map_some, ← hkey]
    exact congrArg (Fields.get? interpreter.options.keyProp) hprops

/-- With keys from positions and no key bound by a node, a build that succeeds
calls every constructor with a key that depends on nothing but the position of
its node. The keys of two nodes differ, and one node is above another exactly if
its key and a dot are the beginning of the other's key. -/
theorem keys_identify_positions {element : E} (hkeys : interpreter.options.keys = .treePath)
    (hfree : ∀ path target, node.at? path = some target → interpreter.boundKey? target = none)
    (hbuild : (interpreter.build node).result = .ok element) :
    ∃ plan, (interpreter.planned.build node).result = .ok plan ∧
      plan.carryOut interpreter.registry = some element ∧
      (∀ path, plan.key? interpreter.options.keyProp path =
        (node.at? path).map fun _ => .string path.key) ∧
      (∀ first second a b, plan.key? interpreter.options.keyProp first = some a →
        plan.key? interpreter.options.keyProp second = some b → first ≠ second → a ≠ b) ∧
      (∀ upper lower a b, plan.key? interpreter.options.keyProp upper = some (.string a) →
        plan.key? interpreter.options.keyProp lower = some (.string b) →
        (upper.IsAbove lower ↔ (a ++ ".").toList <+: b.toList)) := by
  obtain ⟨plan, hplan, hcarried⟩ := interpreter.plan_of_buildAt .root node hbuild
  have hkey := plan_key? hkeys hfree hplan
  have hread {path : NodePath} {value : Value}
      (h : plan.key? interpreter.options.keyProp path = some value) : value = .string path.key := by
    rw [hkey] at h
    obtain ⟨_, _, hvalue⟩ := Option.map_eq_some_iff.1 h
    exact hvalue.symm
  refine ⟨plan, hplan, hcarried, hkey, ?_, ?_⟩
  · intro first second a b ha hb hne heq
    rw [hread ha, hread hb, Value.string.injEq] at heq
    exact hne (NodePath.key_injective heq)
  · intro upper lower a b ha hb
    obtain rfl := Value.string.inj (hread ha)
    obtain rfl := Value.string.inj (hread hb)
    exact (NodePath.key_dot_isPrefix_iff upper lower).symm

/-- A group with eleven labels. Its own key refers to nothing. -/
def labelled : Node :=
  ⟨"Group", some [("key", .string "prop::missing")],
    .nodes (List.replicate 11 (.ofType "Label"))⟩

/-- The second and the eleventh label, whose keys begin alike, are not taken for parent and
child. -/
theorem keys_identify_positions_labelled :
    ∃ plan : Plan, plan.carryOut counting.registry = some 12 ∧
      plan.key? "key" [] = some (.string "0") ∧ plan.key? "key" [1] = some (.string "0.1") ∧
      plan.key? "key" [10] = some (.string "0.10") ∧
      ("0" ++ ".").toList <+: "0.10".toList ∧ ¬ ("0.1" ++ ".").toList <+: "0.10".toList := by
  have hfree : ∀ path target, labelled.at? path = some target →
      counting.boundKey? target = none := by
    rw [Node.forall_at?_iff]
    refine ⟨rfl, fun child hchild => ?_⟩
    obtain rfl : child = .ofType "Label" := List.eq_of_mem_replicate hchild
    rw [Node.forall_at?_iff]
    exact ⟨rfl, fun child hchild => nomatch hchild⟩
  have hkeys : counting.options.keys = .treePath := rfl
  have hbuild : (counting.build labelled).result = .ok 12 := rfl
  obtain ⟨plan, _, hcarried, hkey, _, habove⟩ := keys_identify_positions hkeys hfree hbuild
  have hroot : plan.key? "key" [] = some (.string "0") := hkey []
  have hfirst : plan.key? "key" [1] = some (.string "0.1") := hkey [1]
  have htenth : plan.key? "key" [10] = some (.string "0.10") := hkey [10]
  exact ⟨plan, hcarried, hroot, hfirst, htenth, (habove _ _ _ _ hroot htenth).1 (by decide),
    fun h => absurd ((habove _ _ _ _ hfirst htenth).2 h) (by decide)⟩

end Interpreter

end UiTemplate
