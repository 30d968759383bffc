import UiTemplate.Html.Primitives
import UiTemplate.Proofs.Build.Elements
import UiTemplate.Proofs.Build.Order
import UiTemplate.Proofs.Html.RoundTrip

/-!
What decides the tags of a page. With the built-in types the tags in the markup
of a built template, and how they stand in each other, are those of the template
and nothing else: data from a context reaches texts, attribute values and
styles, and none of it can add a tag, take one away or change one. Two builds of
one template agree in their tags, however their contexts and options differ.
-/

namespace UiTemplate

/-- Tags and how they stand in each other. -/
inductive TagTree where
  | node (tag : String) (children : List TagTree)

namespace Html

namespace Element

mutual

/-- The tags of an element, without its attributes and texts. -/
def tagTree : Element → TagTree
  | ⟨tag, _, _, children⟩ => .node tag (tagTrees children)

def tagTrees : List Element → List TagTree
  | [] => []
  | element :: elements => element.tagTree :: tagTrees elements

end

end Element

def tagOf (type : String) : String :=
  if type = "View" then "div"
  else if type = "Text" then "span"
  else if type = "Image" then "img"
  else if type = "Button" then "button"
  else type

end Html

namespace Node

mutual

/-- The tags of a template: every type gives its tag, child nodes stay in their
order, and there is nothing below an image. -/
def tagTree : Node → TagTree
  | ⟨type, _, children⟩ =>
    .node (Html.tagOf type) (if type = "Image" then [] else tagTreesBelow children)

def tagTreesBelow : Children → List TagTree
  | .nodes nodes => tagTrees nodes
  | _ => []

def tagTrees : List Node → List TagTree
  | [] => []
  | node :: nodes => node.tagTree :: tagTrees nodes

end

end Node

namespace Html

theorem tag_element (tag : String) (props : Props) (content : Content Element) :
    (element tag props content).tag = tag := by
  cases content with
  | empty => rfl
  | leaf value => rfl
  | elements items => rfl

theorem children_element (tag : String) (props : Props) (content : Content Element) :
    (element tag props content).children = content.items := by
  cases content with
  | empty => rfl
  | leaf value => rfl
  | elements items => rfl

/-- What a built-in type says about the elements it builds: their tag is a name
that only depends on the type, only images are void, and the child elements are
those of the content. -/
structure Builds (type : String) (constructor : Constructor Element) : Prop where
  isName : isName (tagOf type) = true
  isVoid : voidTags.contains (tagOf type) = decide (type = "Image")
  tag : ∀ props content, (constructor props content).tag = tagOf type
  children : ∀ props content, (constructor props content).children = content.items

/-- Every built-in type has such a constructor. -/
theorem builds_of_get? {type : String} {constructor : Constructor Element}
    (h : primitives.get? type = some constructor) : Builds type constructor := by
  simp only [primitives, Registry.get?_register, Registry.get?_empty] at h
  split at h
  · next htype =>
    cases h
    subst htype
    exact ⟨by decide, by decide, tag_element "button", children_element "button"⟩
  split at h
  · next htype =>
    cases h
    subst htype
    exact ⟨by decide, by decide, tag_element "img", children_element "img"⟩
  split at h
  · next htype =>
    cases h
    subst htype
    exact ⟨by decide, by decide, tag_element "span", children_element "span"⟩
  split at h
  · next htype =>
    cases h
    subst htype
    exact ⟨by decide, by decide, tag_element "div", children_element "div"⟩
  · cases h

theorem tagTree_normalize (element : Element) :
    element.normalize.tagTree = .node element.tag
      (if voidTags.contains element.tag then []
       else Element.tagTrees (Element.normalizeAll element.children)) := by
  obtain ⟨tag, attributes, text, children⟩ := element
  rw [Element.normalize]
  split
  · next hvoid =>
    rw [Element.tagTree, Element.tagTrees]
  · next hvoid =>
    rw [Element.tagTree]

theorem hasNamedTags_iff (element : Element) :
    element.hasNamedTags = true ↔
      isName element.tag = true ∧ Element.allHaveNamedTags element.children = true := by
  obtain ⟨tag, attributes, text, children⟩ := element
  simp [Element.hasNamedTags]

/-- A constructor of a built-in type hands on what is known of its content. -/
theorem Builds.tagTree {type : String} {constructor : Constructor Element}
    (h : Builds type constructor) {content : Content Element} {children : Children}
    (hnamed : Element.allHaveNamedTags content.items = true)
    (htags : Element.tagTrees (Element.normalizeAll content.items) = Node.tagTreesBelow children)
    (props : Props) (raw : Option (List (String × Json))) :
    (constructor props content).hasNamedTags = true ∧
      (constructor props content).normalize.tagTree = Node.tagTree ⟨type, raw, children⟩ := by
  constructor
  · rw [hasNamedTags_iff, h.tag, h.children]
    exact ⟨h.isName, hnamed⟩
  · rw [tagTree_normalize, h.tag, h.children, h.isVoid, htags, Node.tagTree]
    simp only [decide_eq_true_eq]

variable {interpreter : Interpreter Element}

mutual

/-- What is built from a node has named tags, and the tags that its markup shows
are those of the node. -/
theorem tagTree_of_buildAt (hregistry : interpreter.registry = primitives) :
    (node : Node) → {path : NodePath} → {element : Element} →
    (interpreter.buildAt path node).result = .ok element →
    element.hasNamedTags = true ∧ element.normalize.tagTree = node.tagTree
  | ⟨type, props, children⟩, _, _, hbuild => by
    obtain ⟨constructor, content, hget, hcontent, rfl⟩ :=
      Interpreter.result_buildAt_eq_ok_iff.1 hbuild
    rw [hregistry] at hget
    obtain ⟨hnamed, htags⟩ := tagTrees_of_buildContent hregistry children hcontent
    exact (builds_of_get? hget).tagTree hnamed htags _ props

theorem tagTrees_of_buildContent (hregistry : interpreter.registry = primitives) :
    (children : Children) → {path : NodePath} → {content : Content Element} →
    (interpreter.buildContent path children).result = .ok content →
    Element.allHaveNamedTags content.items = true ∧
      Element.tagTrees (Element.normalizeAll content.items) = Node.tagTreesBelow children
  | .none, _, _, hbuild => by
    cases hbuild
    exact ⟨rfl, rfl⟩
  | .leaf _, _, _, hbuild => by
    cases hbuild
    exact ⟨rfl, rfl⟩
  | .nodes [], _, _, hbuild => by
    cases hbuild
    exact ⟨rfl, rfl⟩
  | .nodes (node :: nodes), _, _, hbuild => by
    rw [Interpreter.buildContent_nodes, Build.result_andThen_eq_ok_iff] at hbuild
    obtain ⟨elements, hitems, hcontent⟩ := hbuild
    cases hcontent
    exact tagTrees_of_buildItems hregistry (node :: nodes) hitems

theorem tagTrees_of_buildItems (hregistry : interpreter.registry = primitives) :
    (nodes : List Node) → {path : NodePath} → {index : Nat} → {elements : List Element} →
    (interpreter.buildItems path index nodes).result = .ok elements →
    Element.allHaveNamedTags elements = true ∧
      Element.tagTrees (Element.normalizeAll elements) = Node.tagTrees nodes
  | [], _, _, _, hbuild => by
    cases hbuild
    exact ⟨rfl, rfl⟩
  | node :: nodes, _, _, _, hbuild => by
    obtain ⟨first, others, hfirst, hothers, rfl⟩ :=
      Interpreter.result_buildItems_cons_eq_ok_iff.1 hbuild
    obtain ⟨hnamed, htags⟩ := tagTree_of_buildAt hregistry node hfirst
    obtain ⟨hallNamed, hallTags⟩ := tagTrees_of_buildItems hregistry nodes hothers
    refine ⟨?_, ?_⟩
    · rw [Element.allHaveNamedTags, hnamed, hallNamed]
      rfl
    · rw [Element.normalizeAll, Element.tagTrees, htags, hallTags, Node.tagTrees]

end

/-- The tags that are read from the markup are those of the template. -/
theorem tagTree_read?_render (hregistry : interpreter.registry = primitives) {node : Node}
    {element : Element} (hbuild : (interpreter.build node).result = .ok element) :
    (Reader.read? element.render).map Element.tagTree = some node.tagTree := by
  obtain ⟨hnamed, htags⟩ := tagTree_of_buildAt hregistry node hbuild
  rw [Reader.read?_render hnamed, Option.map_some, htags]

/-- With the built-in types the markup of a built template has the tags of the
template. So two builds of one template have the same tags, whatever the
contexts hold and whatever the options are. -/
theorem tags_from_template (node : Node) :
    (∀ interpreter : Interpreter Element, interpreter.registry = primitives →
      ∀ element, (interpreter.build node).result = .ok element →
        (Reader.read? element.render).map Element.tagTree = some node.tagTree) ∧
    ∀ first second : Interpreter Element,
      first.registry = primitives → second.registry = primitives →
      ∀ a b, (first.build node).result = .ok a → (second.build node).result = .ok b →
        (Reader.read? a.render).map Element.tagTree =
          (Reader.read? b.render).map Element.tagTree := by
  refine ⟨fun interpreter hregistry element hbuild => tagTree_read?_render hregistry hbuild, ?_⟩
  intro first second hfirst hsecond a b ha hb
  rw [tagTree_read?_render hfirst ha, tagTree_read?_render hsecond hb]

/-- A page that asks for the same value wherever it can. -/
def page : Node :=
  let text := (Node.ofType "Text").withText (.string "Dear $\x7btext::name\x7d")
  let image := ((Node.ofType "Image").withProp "alt" (.string "prop::name")).withChild text
  let button := (Node.ofType "Button").withProp "onPress" (.string "function::name")
  ((((Node.ofType "View").withProp "title" (.string "prop::name")).withChild text).withChild
    image).withChild button

/-- The built-in types and a single value. -/
def pageFor (value : Value) : Interpreter Element where
  context := ⟨[("name", value)]⟩
  registry := primitives

/-- Whether the name closes tags or is a function makes no difference to the tags of the
page. -/
theorem tags_from_template_page :
    ∃ a b, ((pageFor (.string "</span><script>")).build page).result = .ok a ∧
      ((pageFor (.function ⟨7, "\"><img>"⟩)).build page).result = .ok b ∧
      (Reader.read? a.render).map Element.tagTree =
        some (.node "div" [.node "span" [], .node "img" [], .node "button" []]) ∧
      (Reader.read? a.render).map Element.tagTree =
        (Reader.read? b.render).map Element.tagTree := by
  have hknown : (page.preorder .root).all (fun visit => primitives.contains visit.2) = true := by
    decide
  have hbuilt : ∀ value, ∃ element, ((pageFor value).build page).result = .ok element := by
    intro value
    obtain ⟨element, hbuild⟩ :=
      (pageFor value).buildAt_of_knows .root page (List.all_eq_true.1 hknown)
    exact ⟨element, congrArg Build.result hbuild⟩
  obtain ⟨a, ha⟩ := hbuilt (.string "</span><script>")
  obtain ⟨b, hb⟩ := hbuilt (.function ⟨7, "\"><img>"⟩)
  exact ⟨a, b, ha, hb, (tags_from_template page).1 _ rfl a ha,
    (tags_from_template page).2 _ _ rfl rfl a b ha hb⟩

end Html

end UiTemplate
