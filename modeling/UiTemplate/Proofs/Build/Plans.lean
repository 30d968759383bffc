import UiTemplate.Proofs.Build.Elements

/-!
What constructors are called with. Whatever a host makes of props and content,
what it is given can be written down: the constructors of a plan do nothing else.
A build with any registry goes as its plan does, and its result is the plan
carried out. So what is shown of plans is shown of the calls in every build.
-/

namespace UiTemplate

/-- The call of a constructor, with the calls that its content came from. -/
structure Plan where
  type : String
  props : Props
  content : Content Plan

namespace Plan

def view : View Plan := ⟨type, props, content⟩

/-- The key that the constructor for a position is called with. -/
def key? (plan : Plan) (keyProp : String) (path : NodePath) : Option Value :=
  (view.at? plan path).bind fun part => Fields.get? keyProp part.props

variable {E : Type}

mutual

/-- What the planned calls come to, if there is a constructor for every one. -/
def carryOut (registry : Registry E) : Plan → Option E
  | ⟨type, props, content⟩ =>
    match registry.get? type, carryOutContent registry content with
    | some constructor, some content => some (constructor props content)
    | _, _ => none

def carryOutContent (registry : Registry E) : Content Plan → Option (Content E)
  | .empty => some .empty
  | .leaf value => some (.leaf value)
  | .elements plans => (carryOutItems registry plans).map .elements

def carryOutItems (registry : Registry E) : List Plan → Option (List E)
  | [] => some []
  | plan :: plans =>
    match plan.carryOut registry, carryOutItems registry plans with
    | some element, some elements => some (element :: elements)
    | _, _ => none

end

end Plan

variable {E : Type}

/-- The types of a registry, with constructors that write down their calls. -/
def Registry.planned (registry : Registry E) : Registry Plan :=
  ⟨registry.constructors.map fun (type, _) => (type, Plan.mk type)⟩

/-- Plans are made for exactly the types that are known. -/
theorem Registry.get?_planned (registry : Registry E) (type : String) :
    registry.planned.get? type = (registry.get? type).map fun _ => Plan.mk type := by
  obtain ⟨constructors⟩ := registry
  simp only [planned, get?]
  induction constructors with
  | nil => rfl
  | cons entry rest ih =>
    obtain ⟨name, constructor⟩ := entry
    simp only [List.map_cons, Fields.get?]
    split
    · next hname => rw [hname, Option.map_some]
    · exact ih

/-- A plan keeps the props and the content it is made from. -/
theorem Registry.keeps_planned (registry : Registry E) : registry.planned.Keeps Plan.view := by
  have hmk : ∀ {type constructor}, registry.planned.get? type = some constructor →
      constructor = Plan.mk type := by
    intro type constructor h
    rw [get?_planned] at h
    obtain ⟨_, _, rfl⟩ := Option.map_eq_some_iff.1 h
    rfl
  constructor
  case type =>
    intro type constructor h props content
    rw [hmk h]
    rfl
  case props =>
    intro type constructor h props content
    rw [hmk h]
    rfl
  case content =>
    intro type constructor h props content
    rw [hmk h]
    rfl

namespace Interpreter

/-- The interpreter that only plans. -/
def planned (interpreter : Interpreter E) : Interpreter Plan :=
  { interpreter with registry := interpreter.registry.planned }

variable (interpreter : Interpreter E)

mutual

/-- What a build gives is its plan carried out. -/
theorem plan_of_buildAt : (path : NodePath) → (node : Node) → {element : E} →
    (interpreter.buildAt path node).result = .ok element →
    ∃ plan, (interpreter.planned.buildAt path node).result = .ok plan ∧
      plan.carryOut interpreter.registry = some element
  | path, ⟨type, props, children⟩, element, h => by
    obtain ⟨constructor, content, hget, hcontent, rfl⟩ := result_buildAt_eq_ok_iff.1 h
    obtain ⟨planned, hplanned, hcarried⟩ := plan_of_buildContent path children hcontent
    have htype : interpreter.planned.registry.get? type = some (Plan.mk type) := by
      rw [Interpreter.planned, Registry.get?_planned, hget, Option.map_some]
    refine ⟨⟨type, interpreter.props path props, planned⟩,
      result_buildAt_eq_ok_iff.2 ⟨_, _, htype, hplanned, rfl⟩, ?_⟩
    simp only [Plan.carryOut, hget, hcarried]

theorem plan_of_buildContent : (path : NodePath) → (children : Children) → {content : Content E} →
    (interpreter.buildContent path children).result = .ok content →
    ∃ plan, (interpreter.planned.buildContent path children).result = .ok plan ∧
      Plan.carryOutContent interpreter.registry plan = some content
  | _, .none, _, h => by
    cases h
    exact ⟨.empty, rfl, rfl⟩
  | _, .leaf value, _, h => by
    cases h
    exact ⟨.leaf (bindLeaf interpreter.context value), rfl, rfl⟩
  | path, .nodes nodes, _, h => by
    rw [buildContent_nodes, Build.result_andThen_eq_ok_iff] at h
    obtain ⟨elements, hitems, hcontent⟩ := h
    cases hcontent
    obtain ⟨plans, hplans, hcarried⟩ := plan_of_buildItems path 0 nodes hitems
    refine ⟨if nodes.isEmpty then .empty else .elements plans, ?_, ?_⟩
    · rw [buildContent_nodes, Build.result_andThen_eq_ok_iff]
      exact ⟨plans, hplans, rfl⟩
    · cases nodes with
      | nil => rfl
      | cons node nodes => exact Option.map_eq_some_iff.2 ⟨elements, hcarried, rfl⟩

theorem plan_of_buildItems : (path : NodePath) → (index : Nat) → (nodes : List Node) →
    {elements : List E} → (interpreter.buildItems path index nodes).result = .ok elements →
    ∃ plans, (interpreter.planned.buildItems path index nodes).result = .ok plans ∧
      Plan.carryOutItems interpreter.registry plans = some elements
  | _, _, [], _, h => by
    cases h
    exact ⟨[], rfl, rfl⟩
  | path, index, node :: nodes, _, h => by
    obtain ⟨first, others, hfirst, hothers, rfl⟩ := result_buildItems_cons_eq_ok_iff.1 h
    obtain ⟨plan, hplan, hcarried⟩ := plan_of_buildAt (path.child index) node hfirst
    obtain ⟨plans, hplans, hcarriedAll⟩ := plan_of_buildItems path (index + 1) nodes hothers
    refine ⟨plan :: plans, result_buildItems_cons_eq_ok_iff.2 ⟨plan, plans, hplan, hplans, rfl⟩, ?_⟩
    simp only [Plan.carryOutItems, hcarried, hcarriedAll]

end

end Interpreter

end UiTemplate
