import UiTemplate.Html.Page
import UiTemplate.Proofs.Build.Keys
import UiTemplate.Proofs.Expression.Placeholders
import UiTemplate.Proofs.Html.Attributes

/-!
What the marks in a page can be relied on for. An element is marked with the
actions of its functions and calls, and what stands in for a template that is
pending or has failed is marked with a state. Both marks begin with `data-`, and so
do the attributes for all other props. So a mark is what it seems to be as long as
no prop has a name that is written like one in lower case. What the context holds
does not matter, because it has no say in names.
-/

namespace UiTemplate

/-- A name that makes the attribute for a prop look like a mark. -/
def Html.LooksLikeMark (name : String) : Prop :=
  "action-".toList <+: (kebab name).toList ∨ kebab name = "state"

instance (name : String) : Decidable (Html.LooksLikeMark name) :=
  inferInstanceAs (Decidable (_ ∨ _))

/-- The key of a node is no mark, unless it is given another name. -/
theorem Html.not_looksLikeMark_key : ¬ LooksLikeMark "key" := by
  decide

/-- No prop of a node in the tree has a name that looks like a mark. -/
def Node.AvoidsMarks (node : Node) : Prop :=
  ∀ path target, node.at? path = some target →
    ∀ name ∈ Fields.names (target.props.getD []), ¬ Html.LooksLikeMark name

/-- The element that a position leads to. -/
def Html.Element.at? (element : Element) : NodePath → Option Element
  | [] => some element
  | index :: path => element.children[index]?.bind fun child => child.at? path

namespace Interpreter

variable {E : Type} {interpreter : Interpreter E} {path : NodePath} {node : Node}

/-- A node has no props but its own and a key. -/
theorem mem_props {prop : String × Value} (h : prop ∈ interpreter.props path node.props) :
    prop.1 ∈ Fields.names (node.props.getD []) ∨ prop.1 = interpreter.options.keyProp := by
  have hbind : prop ∈ bindProps interpreter.context node.props →
      prop.1 ∈ Fields.names (node.props.getD []) := by
    intro hmem
    rw [← names_bindProps interpreter.context]
    exact List.mem_map_of_mem hmem
  cases hbound : interpreter.boundKey? node with
  | some key =>
    rw [props_of_boundKey? hbound] at h
    exact .inl (hbind h)
  | none =>
    rw [props_of_boundKey?_eq_none hbound] at h
    cases hassigned : interpreter.assignedKey? path with
    | none =>
      rw [hassigned] at h
      exact .inl (hbind h)
    | some key =>
      rw [hassigned] at h
      rcases Fields.mem_insert h with rfl | hmem
      · exact .inr rfl
      · exact .inl (hbind hmem)

/-- An element in the content of a node has been built from the child node that
has the same place. -/
theorem exists_child_of_buildContent {content : Content E} {index : Nat} {part : E}
    (h : (interpreter.buildContent path node.children).result = .ok content)
    (hpart : content.items[index]? = some part) :
    ∃ child, node.childNodes[index]? = some child ∧
      (interpreter.buildAt (path.child index) child).result = .ok part := by
  obtain ⟨hlength, hitems⟩ := item_of_buildContent h
  have hindex : index < node.childNodes.length :=
    hlength ▸ (List.getElem?_eq_some_iff.1 hpart).1
  have hchild := List.getElem?_eq_getElem hindex
  obtain ⟨built, hbuilt, hresult⟩ := hitems index _ hchild
  rw [hpart, Option.some.injEq] at hbuilt
  exact ⟨_, hchild, hbuilt ▸ hresult⟩

end Interpreter

namespace Html

variable {interpreter : Interpreter Element} {path below : NodePath} {node : Node}
  {element part : Element} {tag : String} {prop : String × Value} {attr : Attribute}

/-- A built element is that of a built-in type, for the props of the node and its
content. -/
theorem parts_of_buildAt (hregistry : interpreter.registry = primitives)
    (h : (interpreter.buildAt path node).result = .ok element) :
    ∃ constructor content, primitives.get? node.type = some constructor ∧
      (interpreter.buildContent path node.children).result = .ok content ∧
      constructor (interpreter.props path node.props) content = element := by
  obtain ⟨type, props, children⟩ := node
  rw [← hregistry]
  exact Interpreter.result_buildAt_eq_ok_iff.1 h

/-- Every element of a page has been built from the node in the same place. -/
theorem exists_target_of_at? (hregistry : interpreter.registry = primitives)
    (h : (interpreter.buildAt path node).result = .ok element)
    (hat : element.at? below = some part) :
    ∃ target, node.at? below = some target ∧
      (interpreter.buildAt (path ++ below) target).result = .ok part := by
  induction below generalizing path node element with
  | nil =>
    cases hat
    exact ⟨node, rfl, by rwa [List.append_nil]⟩
  | cons index below ih =>
    obtain ⟨child, hchild, hbelow⟩ := Option.bind_eq_some_iff.1 hat
    obtain ⟨constructor, content, hget, hcontent, rfl⟩ := parts_of_buildAt hregistry h
    rw [(builds_of_get? hget).children] at hchild
    obtain ⟨childNode, hnode, hbuild⟩ :=
      Interpreter.exists_child_of_buildContent hcontent hchild
    obtain ⟨target, htarget, hresult⟩ := ih hbuild hbelow
    rw [NodePath.child, List.append_assoc] at hresult
    exact ⟨target, Node.at?_cons_eq_some_iff.2 ⟨childNode, hnode, htarget⟩, hresult⟩

/-- An attribute of a built element is fixed for its type or stands for a prop. -/
theorem mem_attributes_of_buildAt (hregistry : interpreter.registry = primitives)
    (h : (interpreter.buildAt path node).result = .ok element) (hattr : attr ∈ element.attributes) :
    attr = ⟨"type", some "button"⟩ ∨
      ∃ prop ∈ interpreter.props path node.props, propAttribute? (tagOf node.type) prop = some attr := by
  obtain ⟨constructor, content, hget, _, rfl⟩ := parts_of_buildAt hregistry h
  rw [attributes_of_get? hget, List.mem_append] at hattr
  rcases hattr with hfixed | hprop
  · exact .inl (eq_of_mem_fixedAttributes hfixed)
  · exact .inr (List.mem_filterMap.1 hprop)

/-- An attribute that looks like the mark of an action is one. -/
theorem actionAttribute_of_isPrefix (hname : ¬ LooksLikeMark prop.1)
    (h : propAttribute? tag prop = some attr)
    (hmark : "data-action-".toList <+: attr.name.toList) :
    ∃ target, prop.2.actionName? = some target ∧ attr = actionAttribute prop.1 target := by
  obtain ⟨name, value⟩ := prop
  cases writtenAs h with
  | own hown =>
    have hdata : "data-".toList <+: "data-action-".toList := by decide
    exact absurd (hdata.trans hmark) (not_data_of_ownName? hown)
  | action target _ htarget hattr => exact ⟨target, htarget, hattr⟩
  | data _ _ hdata =>
    have hsplit : "data-action-".toList = "data-".toList ++ "action-".toList := by decide
    rw [hdata, String.toList_append, hsplit, List.prefix_append_right_inj] at hmark
    exact absurd (.inl hmark) hname

theorem name_ne_of_not_looksLikeMark (hname : ¬ LooksLikeMark prop.1)
    (h : propAttribute? tag prop = some attr) : attr.name ≠ "data-state" := by
  intro hstate
  have hsplit : "data-state" = "data-" ++ "state" := by decide
  obtain ⟨name, value⟩ := prop
  cases writtenAs h with
  | own hown =>
    have hdata : "data-".toList <+: attr.name.toList := by
      rw [hstate]
      decide
    exact not_data_of_ownName? hown hdata
  | action target _ _ hattr =>
    rw [hattr, name_actionAttribute, hsplit, String.append_right_inj] at hstate
    have hchars := congrArg String.toList hstate
    simp at hchars
  | data _ _ hdata =>
    rw [hdata, hsplit, String.append_right_inj] at hstate
    exact hname (.inr hstate)

theorem attributes_normalize (element : Element) :
    element.normalize.attributes = element.attributes.filter fun attr => isName attr.name := by
  obtain ⟨tag, attributes, text, children⟩ := element
  rw [Element.normalize]
  split
  · rfl
  · rfl

/-- The markup of an element without a state is not that of an element with
one. -/
theorem render_ne_of_state {mark : Element} (helement : element.hasNamedTags = true)
    (hmark : mark.hasNamedTags = true) (hfree : ∀ attr ∈ element.attributes, attr.name ≠ "data-state")
    (hattr : attr ∈ mark.attributes) (hstate : attr.name = "data-state") :
    element.render ≠ mark.render := by
  intro hrender
  have hread := Reader.read?_render helement
  rw [hrender, Reader.read?_render hmark, Option.some.injEq] at hread
  have hmem : attr ∈ mark.normalize.attributes := by
    rw [attributes_normalize, List.mem_filter, hstate]
    exact ⟨hattr, by decide⟩
  rw [hread, attributes_normalize] at hmem
  exact hfree attr (List.mem_filter.1 hmem).1 hstate

/-- The names of the node, and of the key, leave the marks to the renderer. -/
theorem not_looksLikeMark_of_mem_props (hnode : node.AvoidsMarks)
    (hkey : ¬ LooksLikeMark interpreter.options.keyProp) {target : Node}
    (htarget : node.at? below = some target) (h : prop ∈ interpreter.props path target.props) :
    ¬ LooksLikeMark prop.1 := by
  rcases Interpreter.mem_props h with hname | hname
  · exact hnode below target htarget prop.1 hname
  · rwa [hname]

/-- A template that avoids the marks has no element with a state, at any position. -/
theorem not_data_state_of_build (hregistry : interpreter.registry = primitives)
    (hnode : node.AvoidsMarks) (hkey : ¬ LooksLikeMark interpreter.options.keyProp) {target : Node}
    (htarget : node.at? below = some target)
    (h : (interpreter.buildAt path target).result = .ok element) :
    ∀ attr ∈ element.attributes, attr.name ≠ "data-state" := by
  intro attr hattr
  rcases mem_attributes_of_buildAt hregistry h hattr with rfl | ⟨prop, hprop, hwritten⟩
  · decide
  · exact name_ne_of_not_looksLikeMark (not_looksLikeMark_of_mem_props hnode hkey htarget hprop)
      hwritten

/-- A template that avoids the names of marks is not taken for one that is not
there. -/
theorem renderState_ready_ne (hnode : node.AvoidsMarks) (context : Context) {mark : Element}
    (hmark : mark.hasNamedTags = true) (hattr : attr ∈ mark.attributes)
    (hstate : attr.name = "data-state") :
    renderState context primitives (.ready node) ≠ .ok mark.render := by
  intro heq
  let interpreter : Interpreter Element := { context, registry := primitives }
  obtain ⟨element, hbuild, hrender⟩ : ∃ element,
      (interpreter.build node).result = .ok element ∧ element.render = mark.render := by
    rw [renderState] at heq
    cases hresult : (interpreter.build node).result with
    | error error =>
      rw [hresult] at heq
      cases heq
    | ok element =>
      rw [hresult] at heq
      exact ⟨element, rfl, Except.ok.inj heq⟩
  have hregistry : interpreter.registry = primitives := rfl
  have hnamed := (tagTree_of_buildAt hregistry node hbuild).1
  have hroot : node.at? [] = some node := rfl
  have hfree := not_data_state_of_build hregistry hnode not_looksLikeMark_key hroot hbuild
  exact render_ne_of_state hnamed hmark hfree hattr hstate hrender

/-- If the names in a template, and that of the key, leave the marks to the
renderer, then in every element of the page an attribute for an action comes from a
function or a call and names its target, no element is marked with a state, and
whatever the context is, the template is never taken for one that is pending or has
failed. -/
theorem marks_are_authentic (hnode : node.AvoidsMarks) :
    (∀ interpreter : Interpreter Element, interpreter.registry = primitives →
      ¬ LooksLikeMark interpreter.options.keyProp →
      ∀ element, (interpreter.build node).result = .ok element →
      ∀ path part, element.at? path = some part →
        (∃ target, node.at? path = some target ∧
          ∀ attr ∈ part.attributes, "data-action-".toList <+: attr.name.toList →
            ∃ prop ∈ interpreter.props path target.props, ∃ name,
              prop.2.actionName? = some name ∧ attr = actionAttribute prop.1 name) ∧
        ∀ attr ∈ part.attributes, attr.name ≠ "data-state") ∧
    ∀ context error,
      renderState context primitives (.ready node) ≠ renderState context primitives .pending ∧
      renderState context primitives (.ready node) ≠
        renderState context primitives (.failed error) := by
  constructor
  · intro interpreter hregistry hkey element hbuild path part hpart
    obtain ⟨target, htarget, hresult⟩ := exists_target_of_at? hregistry hbuild hpart
    rw [NodePath.root, List.nil_append] at hresult
    refine ⟨⟨target, htarget, ?_⟩, not_data_state_of_build hregistry hnode hkey htarget hresult⟩
    intro attr hattr hmark
    rcases mem_attributes_of_buildAt hregistry hresult hattr with rfl | ⟨prop, hprop, hwritten⟩
    · exact absurd hmark (by decide)
    · have hname := not_looksLikeMark_of_mem_props hnode hkey htarget hprop
      exact ⟨prop, hprop, actionAttribute_of_isPrefix hname hwritten hmark⟩
  · intro context error
    constructor
    · exact renderState_ready_ne hnode context (by decide) List.mem_cons_self rfl
    · have hnamed : (errorMark error.message).hasNamedTags = true := rfl
      exact renderState_ready_ne hnode context hnamed List.mem_cons_self rfl

def goButton : Node :=
  (Node.ofType "View").withChild
    ((Node.ofType "Button").withProp "onPress" (.string "function::go"))

def goPage : Interpreter Element where
  context := ⟨[("go", .function ⟨1, "go"⟩)]⟩
  registry := primitives

/-- The button is marked with the function that it is bound to. -/
theorem marks_are_authentic_go_button :
    goButton.AvoidsMarks ∧ ∃ element part, (goPage.build goButton).result = .ok element ∧
      element.at? [0] = some part ∧ ⟨"data-action-on-press", some "go"⟩ ∈ part.attributes ∧
      (∃ target, goButton.at? [0] = some target ∧
        ∃ prop ∈ goPage.props [0] target.props, ∃ name, prop.2.actionName? = some name ∧
          Attribute.mk "data-action-on-press" (some "go") = actionAttribute prop.1 name) ∧
      (∀ attr ∈ part.attributes, attr.name ≠ "data-state") ∧
      renderState goPage.context primitives (.ready goButton) ≠
        renderState goPage.context primitives .pending := by
  have havoids : goButton.AvoidsMarks := by
    refine Node.forall_at?_iff.2 ⟨by decide, ?_⟩
    intro child hchild
    rw [List.mem_singleton.1 hchild]
    refine Node.forall_at?_iff.2 ⟨by decide, ?_⟩
    rintro _ ⟨⟩
  let button : Element := {
    tag := "button"
    attributes := [⟨"type", some "button"⟩, ⟨"data-key", some "0.0"⟩,
      ⟨"data-action-on-press", some "go"⟩] }
  have hbuild : (goPage.build goButton).result =
      .ok { tag := "div", attributes := [⟨"data-key", some "0"⟩], children := [button] } := by
    rfl
  obtain ⟨hpage, hstates⟩ := marks_are_authentic havoids
  obtain ⟨⟨target, htarget, hmarks⟩, hfree⟩ :=
    hpage goPage rfl not_looksLikeMark_key _ hbuild [0] button rfl
  exact ⟨havoids, _, button, hbuild, rfl, by decide,
    ⟨target, htarget, hmarks _ (by decide) (by decide)⟩, hfree,
    (hstates goPage.context (.fetch (.notFound ""))).1⟩

/-- A view with the mark of an acquisition that is pending, and nothing else. -/
def pendingLook : Node :=
  ((Node.ofType "View").withProp "key" (.array [])).withProp "state" (.string "loading")

/-- Without a function there can still be a mark of an action, and a template that
is there can be taken for one that is pending: its props only have to be called
like the marks. -/
theorem marks_by_name :
    (Html.element "div" [("actionPress", .string "pay")] .empty).attributes =
      [⟨"data-action-press", some "pay"⟩] ∧
    renderState ⟨[]⟩ primitives (.ready pendingLook) = renderState ⟨[]⟩ primitives .pending := by
  constructor
  · decide
  · let interpreter : Interpreter Element := { context := ⟨[]⟩, registry := primitives }
    have hplain : TextPart.parse "loading".toList = [.literal "loading".toList] :=
      TextPart.parse_of_not_hasPlaceholder (TextPart.first?_eq_none_iff.1 rfl)
    have hvalue : evaluate ⟨[]⟩ "loading" = .string "loading" :=
      congrArg (Expression.eval ⟨[]⟩ ∘ Expression.text) hplain
    have hprops : interpreter.props .root pendingLook.props =
        [("key", .array []), ("state", evaluate ⟨[]⟩ "loading")] := rfl
    have hbuild : (interpreter.build pendingLook).result =
        .ok (Html.element "div" (interpreter.props .root pendingLook.props) .empty) := rfl
    rw [hprops, hvalue] at hbuild
    exact congrArg (Except.map Element.render) hbuild

end Html

end UiTemplate
