import Mathlib.Algebra.GroupWithZero.Nat
import UiTemplate.Proofs.Fields.Last
import UiTemplate.Template

/-!
Nodes that are put together step by step. Steps that set a prop add up, while those
that say what is below a node undo each other: a text takes the place of whatever was
there, and a child that of a text. So a node is known by the last value of each prop
and by what was done since the last text. The first is an induction over all steps.
For the second the steps are cut at the last text, and the induction is over those
behind it.
-/

namespace UiTemplate

inductive BuilderStep where
  | prop (name : String) (value : Json)
  | text (value : Json)
  | child (node : Node)

namespace BuilderStep

def prop? : BuilderStep → Option (String × Json)
  | .prop name value => some (name, value)
  | _ => none

def child? : BuilderStep → Option Node
  | .child node => some node
  | _ => none

def isText : BuilderStep → Bool
  | .text _ => true
  | _ => false

def propsOf (steps : List BuilderStep) : List (String × Json) :=
  steps.filterMap prop?

def childrenOf (steps : List BuilderStep) : List Node :=
  steps.filterMap child?

/-- The last text, if there is one, and the steps behind it. -/
inductive SinceText : List BuilderStep → Option Json → List BuilderStep → Prop where
  | never {steps : List BuilderStep} (h : ∀ step ∈ steps, step.isText = false) :
    SinceText steps none steps
  | last (front : List BuilderStep) (value : Json) {back : List BuilderStep}
    (h : ∀ step ∈ back, step.isText = false) :
    SinceText (front ++ .text value :: back) (some value) back

/-- Steps that have nothing to do with each other: they set different props, or only
one of them sets a prop. -/
inductive Independent : BuilderStep → BuilderStep → Prop where
  | props {name other : String} (h : name ≠ other) (value new : Json) :
    Independent (.prop name value) (.prop other new)
  | before {step : BuilderStep} (h : step.prop? = none) (name : String) (value : Json) :
    Independent (.prop name value) step
  | behind {step : BuilderStep} (h : step.prop? = none) (name : String) (value : Json) :
    Independent step (.prop name value)

theorem exists_sinceText (steps : List BuilderStep) :
    ∃ text since, SinceText steps text since := by
  induction steps using List.reverseRecOn with
  | nil => exact ⟨none, [], .never (by simp)⟩
  | append_singleton steps step ih =>
    cases hstep : step.isText with
    | true =>
      cases step with
      | text value => exact ⟨some value, [], .last steps value (by simp)⟩
      | prop | child => cases hstep
    | false =>
      have hback : ∀ since : List BuilderStep, (∀ step ∈ since, step.isText = false) →
          ∀ other ∈ since ++ [step], other.isText = false := by
        intro since hsince other hother
        rcases List.mem_append.1 hother with hmem | hmem
        · exact hsince other hmem
        · rwa [List.mem_singleton.1 hmem]
      obtain ⟨text, since, h⟩ := ih
      cases h with
      | never h => exact ⟨none, _, .never (hback _ h)⟩
      | last front value h =>
        refine ⟨some value, since ++ [step], ?_⟩
        rw [List.append_assoc]
        exact .last front value (hback since h)

end BuilderStep

/-- The nodes if there are any, or else the text if there is one. -/
def Children.since (text : Option Json) : List Node → Children
  | [] => (text.map .leaf).getD .none
  | first :: rest => .nodes (first :: rest)

namespace Node

open BuilderStep (SinceText Independent propsOf childrenOf exists_sinceText)

variable {node : Node} {step first second : BuilderStep} {steps since : List BuilderStep}
  {text : Option Json} {nodes : List Node}

def after (node : Node) : BuilderStep → Node
  | .prop name value => node.withProp name value
  | .text value => node.withText value
  | .child child => node.withChild child

/-- The node that the steps lead to from a node with nothing but a type. -/
def built (type : String) (steps : List BuilderStep) : Node :=
  steps.foldl after (ofType type)

theorem built_append_singleton (type : String) (steps : List BuilderStep) (step : BuilderStep) :
    built type (steps ++ [step]) = (built type steps).after step := by
  rw [built, List.foldl_append]
  rfl

theorem type_after (node : Node) (step : BuilderStep) : (node.after step).type = node.type := by
  cases step with
  | prop | text => rfl
  | child child =>
    rw [after, withChild]
    split
    · rfl
    · rfl

theorem type_built (type : String) (steps : List BuilderStep) : (built type steps).type = type := by
  induction steps using List.reverseRecOn with
  | nil => rfl
  | append_singleton steps step ih => rw [built_append_singleton, type_after, ih]

theorem props_after_of_prop? {name : String} {value : Json} (h : step.prop? = some (name, value)) :
    (node.after step).props = some (Fields.insert name value (node.props.getD [])) := by
  cases step with
  | prop =>
    cases h
    rfl
  | text | child => cases h

theorem props_after_of_prop?_eq_none (h : step.prop? = none) :
    (node.after step).props = node.props := by
  cases step with
  | prop => cases h
  | text => rfl
  | child child =>
    rw [after, withChild]
    split
    · rfl
    · rfl

/-- The props are what the steps set, the last one of each name. -/
theorem props_built (type : String) (steps : List BuilderStep) :
    (built type steps).props =
      if propsOf steps = [] then none else some (Fields.ofList (propsOf steps)) := by
  induction steps using List.reverseRecOn with
  | nil => rfl
  | append_singleton steps step ih =>
    rw [built_append_singleton, propsOf, List.filterMap_append]
    cases hstep : step.prop? with
    | none =>
      rw [props_after_of_prop?_eq_none hstep, ih]
      simp [hstep, propsOf]
    | some entry =>
      obtain ⟨name, value⟩ := entry
      have hprops : (built type steps).props.getD [] = Fields.ofList (propsOf steps) := by
        rw [ih]
        split
        · next hnil => rw [hnil]; rfl
        · rfl
      rw [props_after_of_prop? hstep, hprops, ← Fields.ofList_append_singleton]
      simp [hstep, propsOf]

theorem children_after (h : node.children = .since text nodes) (hstep : step.isText = false) :
    (node.after step).children = .since text (nodes ++ step.child?.toList) := by
  cases step with
  | prop name value =>
    rw [← List.append_nil nodes] at h
    exact h
  | text => cases hstep
  | child child =>
    rw [after, withChild, h]
    cases nodes with
    | nil => cases text <;> rfl
    | cons => rfl

theorem children_foldl_after (h : node.children = .since text nodes)
    (hsteps : ∀ step ∈ steps, step.isText = false) :
    (steps.foldl after node).children = .since text (nodes ++ childrenOf steps) := by
  induction steps generalizing node nodes with
  | nil => simpa [childrenOf] using h
  | cons step steps ih =>
    obtain ⟨hstep, hsteps⟩ := List.forall_mem_cons.1 hsteps
    rw [List.foldl_cons, ih (children_after h hstep) hsteps, List.append_assoc]
    cases hchild : step.child? with
    | none => simp [childrenOf, hchild]
    | some child => simp [childrenOf, hchild]

/-- The children are the last text and what was added since. -/
theorem children_built (type : String) (h : SinceText steps text since) :
    (built type steps).children = .since text (childrenOf since) := by
  cases h with
  | never h =>
    have hstart : (ofType type).children = .since none [] := rfl
    exact children_foldl_after hstart h
  | last front value h =>
    have htext : ((front.foldl after (ofType type)).withText value).children =
        .since (some value) [] := rfl
    rw [built, List.foldl_append, List.foldl_cons]
    exact children_foldl_after htext h

theorem countAll_eq_sum (nodes : List Node) : countAll nodes = (nodes.map count).sum := by
  induction nodes with
  | nil => rfl
  | cons node nodes ih => rw [countAll, ih, List.map_cons, List.sum_cons]

theorem count_of_children (h : node.children = .since text nodes) :
    node.count = 1 + (nodes.map count).sum := by
  obtain ⟨type, props, children⟩ := node
  obtain rfl : children = .since text nodes := h
  rw [count]
  cases nodes with
  | nil => cases text <;> rfl
  | cons first rest => exact congrArg (1 + ·) (countAll_eq_sum (first :: rest))

/-- Steps that have nothing to do with each other can change places. -/
theorem after_comm (h : Independent first second) (node : Node) :
    (node.after first).after second = (node.after second).after first := by
  cases h with
  | props h value new => simp [after, withProp, Fields.insert_comm h]
  | before h name value =>
    cases second with
    | prop => cases h
    | text => rfl
    | child child => obtain ⟨type, props, _ | _ | _⟩ := node <;> rfl
  | behind h name value =>
    cases first with
    | prop => cases h
    | text => rfl
    | child child => obtain ⟨type, props, _ | _ | _⟩ := node <;> rfl

/-- What a node has become after any steps. It has the type it began with. There are
props exactly if one was set, and each has the value that it was set to last. Below it
are the children that were added since the last text, in that order, and if there are
none, that text if there is one; so the children that count are these. Two steps in a
row that have nothing to do with each other can change places. -/
theorem built_by_steps (type : String) (steps : List BuilderStep) :
    (built type steps).type = type ∧
    ((built type steps).props = none ↔ ∀ step ∈ steps, step.prop? = none) ∧
    (∀ props, (built type steps).props = some props → Fields.Sorted props ∧
      ∀ name value, Fields.get? name props = some value ↔
        Fields.IsLast name value (propsOf steps)) ∧
    (∃ text since, SinceText steps text since) ∧
    (∀ text since, SinceText steps text since →
      (built type steps).children = .since text (childrenOf since) ∧
      (built type steps).count = 1 + ((childrenOf since).map count).sum) ∧
    ∀ front first second back, Independent first second →
      steps = front ++ first :: second :: back →
      built type steps = built type (front ++ second :: first :: back) := by
  refine ⟨type_built type steps, ?_, ?_, exists_sinceText steps, ?_, ?_⟩
  · rw [props_built, ite_eq_left_iff, propsOf, List.filterMap_eq_nil_iff]
    simp
  · intro props hprops
    rw [props_built] at hprops
    split at hprops
    · cases hprops
    · cases hprops
      exact ⟨Fields.sorted_ofList _, fun name value => Fields.get?_ofList_eq_some_iff⟩
  · intro text since h
    have hchildren := children_built type h
    exact ⟨hchildren, count_of_children hchildren⟩
  · rintro front first second back h rfl
    simp only [built, List.foldl_append, List.foldl_cons, after_comm h]

/-- A card whose first text gives way to two other texts. -/
def cardSteps : List BuilderStep :=
  [.prop "flex" (.bool true), .text (.string "old"),
    .child ((ofType "Text").withText (.string "a")),
    .prop "flex" (.bool false), .child ((ofType "Text").withText (.string "b"))]

/-- The old text is gone, and the prop has its last value. -/
theorem built_by_steps_card :
    SinceText cardSteps (some (.string "old")) (cardSteps.drop 2) ∧
      (built "View" cardSteps).count = 3 ∧
      (built "View" cardSteps).props = some [("flex", .bool false)] ∧
      (Fields.get? "flex" [("flex", Json.bool false)] = some (.bool false) ↔
        Fields.IsLast "flex" (.bool false) (propsOf cardSteps)) ∧
      Independent (.child ((ofType "Text").withText (.string "a"))) (.prop "flex" (.bool false)) ∧
      built "View" cardSteps =
        built "View" (cardSteps.take 2 ++ .prop "flex" (.bool false) ::
          .child ((ofType "Text").withText (.string "a")) :: cardSteps.drop 4) := by
  obtain ⟨-, -, hprops, -, hchildren, hexchange⟩ := built_by_steps "View" cardSteps
  have hsince : SinceText cardSteps (some (.string "old")) (cardSteps.drop 2) :=
    .last (cardSteps.take 1) (.string "old") (by simp [BuilderStep.isText])
  have hflex : (built "View" cardSteps).props = some [("flex", .bool false)] := by
    rw [props_built]
    rfl
  have hindependent :
      Independent (.child ((ofType "Text").withText (.string "a"))) (.prop "flex" (.bool false)) :=
    .behind rfl "flex" (.bool false)
  exact ⟨hsince, (hchildren _ _ hsince).2, hflex, (hprops _ hflex).2 "flex" (.bool false),
    hindependent, hexchange (cardSteps.take 2) _ _ (cardSteps.drop 4) hindependent rfl⟩

end Node

end UiTemplate
