import UiTemplate.Build

/-!
What the steps of a build come to. A chain of two builds calls what the first
one called and, if that succeeded, what the second one called. A node of an
unknown type ends the build before anything below it is touched; any other node
is built after its content. Proofs about builds use these statements and do not
look inside the recursion.
-/

namespace UiTemplate

namespace Build

variable {α β : Type}

theorem andThen_of_ok {first : Build α} {value : α} (h : first.result = .ok value)
    (next : α → Build β) :
    first.andThen next = ⟨first.called ++ (next value).called, (next value).result⟩ := by
  simp only [andThen, h]

theorem andThen_of_error {first : Build α} {error : BuildError}
    (h : first.result = .error error) (next : α → Build β) :
    first.andThen next = ⟨first.called, .error error⟩ := by
  simp only [andThen, h]

/-- A chain succeeds when both of its parts do. -/
theorem result_andThen_eq_ok_iff {first : Build α} {next : α → Build β} {value : β} :
    (first.andThen next).result = .ok value ↔
      ∃ middle, first.result = .ok middle ∧ (next middle).result = .ok value := by
  cases h : first.result with
  | error error =>
    rw [andThen_of_error h]
    constructor
    · intro hresult
      cases hresult
    · rintro ⟨middle, hmiddle, _⟩
      cases hmiddle
  | ok middle =>
    rw [andThen_of_ok h]
    constructor
    · intro hresult
      exact ⟨middle, rfl, hresult⟩
    · rintro ⟨_, hmiddle, hresult⟩
      cases hmiddle
      exact hresult

end Build

namespace Interpreter

variable {E : Type} {interpreter : Interpreter E} {path : NodePath} {type : String}
  {props : Option (List (String × Json))} {children : Children}

/-- A node of an unknown type fails before its props and its children are looked at. -/
theorem buildAt_of_get?_eq_none (h : interpreter.registry.get? type = none) :
    interpreter.buildAt path ⟨type, props, children⟩ = .fail (.unknownType type path) := by
  simp only [buildAt, h]

/-- The constructor of a known type is called last, after all that the content calls. -/
theorem buildAt_of_get? {constructor : Constructor E}
    (h : interpreter.registry.get? type = some constructor) :
    interpreter.buildAt path ⟨type, props, children⟩ =
      (interpreter.buildContent path children).andThen fun content =>
        ⟨[(path, type)], .ok (constructor (interpreter.props path props) content)⟩ := by
  simp only [buildAt, h]

theorem buildContent_nodes (interpreter : Interpreter E) (path : NodePath) (nodes : List Node) :
    interpreter.buildContent path (.nodes nodes) =
      (interpreter.buildItems path 0 nodes).andThen fun elements =>
        .done (if nodes.isEmpty then .empty else .elements elements) := by
  cases nodes with
  | nil => rfl
  | cons node nodes => rfl

/-- A node is built when its type is known and its content is built. -/
theorem result_buildAt_eq_ok_iff {element : E} :
    (interpreter.buildAt path ⟨type, props, children⟩).result = .ok element ↔
      ∃ constructor content, interpreter.registry.get? type = some constructor ∧
        (interpreter.buildContent path children).result = .ok content ∧
        constructor (interpreter.props path props) content = element := by
  cases h : interpreter.registry.get? type with
  | none =>
    rw [buildAt_of_get?_eq_none h]
    constructor
    · intro hresult
      cases hresult
    · rintro ⟨_, _, hget, _⟩
      cases hget
  | some constructor =>
    rw [buildAt_of_get? h, Build.result_andThen_eq_ok_iff]
    constructor
    · rintro ⟨content, hcontent, hresult⟩
      exact ⟨constructor, content, rfl, hcontent, Except.ok.inj hresult⟩
    · rintro ⟨_, content, hget, hcontent, hresult⟩
      cases hget
      exact ⟨content, hcontent, congrArg Except.ok hresult⟩

/-- Child nodes are built when each of them is. -/
theorem result_buildItems_cons_eq_ok_iff {index : Nat} {node : Node} {nodes : List Node}
    {elements : List E} :
    (interpreter.buildItems path index (node :: nodes)).result = .ok elements ↔
      ∃ first others, (interpreter.buildAt (path.child index) node).result = .ok first ∧
        (interpreter.buildItems path (index + 1) nodes).result = .ok others ∧
        first :: others = elements := by
  rw [buildItems, Build.result_andThen_eq_ok_iff]
  constructor
  · rintro ⟨first, hfirst, hothers⟩
    obtain ⟨others, hothers, hresult⟩ := Build.result_andThen_eq_ok_iff.1 hothers
    exact ⟨first, others, hfirst, hothers, Except.ok.inj hresult⟩
  · rintro ⟨first, others, hfirst, hothers, hresult⟩
    exact ⟨first, hfirst,
      Build.result_andThen_eq_ok_iff.2 ⟨others, hothers, congrArg Except.ok hresult⟩⟩

end Interpreter

end UiTemplate
