import UiTemplate.Proofs.Build.Agreement
import UiTemplate.Proofs.Json.Same
import UiTemplate.Proofs.Template.Reading

/-!
Which nodes their documents describe. A node that was put together by hand may
have an empty type, a leaf that is no text or an empty list of children; its
document then says something else, or nothing at all. The document of any other
node reads as that node. What was read from a document is of this kind
throughout, so its own document is a canonical form of the one that was read:
the same template, built in the same way.
-/

namespace UiTemplate

namespace Json

def isScalar : Json → Bool
  | .string _ | .number _ | .bool _ => true
  | _ => false

end Json

namespace Node

/-- A node of the kind that documents describe. -/
structure IsProper (node : Node) : Prop where
  type : node.type ≠ ""
  leaf : ∀ value, node.children = .leaf value → value.isScalar = true
  nodes : ∀ nodes, node.children = .nodes nodes → nodes ≠ []

/-- A tree with only such nodes. -/
def AllProper (node : Node) : Prop :=
  ∀ path target, node.at? path = some target → target.IsProper

/-- What a document is written as after it has been read. -/
def canonical (json : Json) : Except TemplateError Json :=
  (ofJson json).map toJson

theorem allProper_iff {node : Node} :
    node.AllProper ↔ node.IsProper ∧ ∀ child ∈ node.childNodes, child.AllProper :=
  forall_at?_iff

variable {path : NodePath} {index : Nat}

theorem exists_item_of_mem_readItems {items : List Json} {nodes : List Node} {node : Node}
    (h : readItems path index items = .ok nodes) (hnode : node ∈ nodes) :
    ∃ i, ∃ item ∈ items, readValue (path.child i) item = .ok node := by
  obtain ⟨hlength, hall⟩ := readItems_eq_ok_iff.1 h
  obtain ⟨i, hi⟩ := List.mem_iff_getElem?.1 hnode
  have hlt : i < items.length := hlength ▸ (List.getElem?_eq_some_iff.1 hi).1
  obtain ⟨found, hfound, hread⟩ := hall i items[i] (List.getElem?_eq_getElem hlt)
  rw [hi] at hfound
  cases hfound
  exact ⟨index + i, items[i], List.getElem_mem hlt, hread⟩

theorem isScalar_of_forall_ne {json : Json} (hnull : json ≠ .null)
    (harray : ∀ items, json ≠ .array items) (hobject : ∀ members, json ≠ .object members) :
    json.isScalar = true := by
  cases json with
  | string s => rfl
  | number n => rfl
  | bool b => rfl
  | null => exact absurd rfl hnull
  | array items => exact absurd rfl (harray items)
  | object members => exact absurd rfl (hobject members)

section

variable {type : String} {props : Option (List (String × Json))} (htype : type ≠ "")
include htype

theorem isProper_none : IsProper ⟨type, props, .none⟩ :=
  ⟨htype, by simp, by simp⟩

theorem isProper_leaf {value : Json} (hvalue : value.isScalar = true) :
    IsProper ⟨type, props, .leaf value⟩ :=
  ⟨htype, by simpa using hvalue, by simp⟩

theorem isProper_nodes {nodes : List Node} (hnodes : nodes ≠ []) :
    IsProper ⟨type, props, .nodes nodes⟩ :=
  ⟨htype, by simp, by simpa using hnodes⟩

end

/-- The content of a node that has as many child nodes as there are documents
for them. -/
theorem isProper_of_contentOf {node : Node} {children : Option Json} {nodes : List Node}
    (htype : node.type ≠ "") (hcontent : contentOf children nodes = node.children)
    (hlength : nodes.length = (Json.documentsIn children).length) :
    node.IsProper ∧ node.childNodes ⊆ nodes := by
  obtain ⟨type, props, content⟩ := node
  revert hcontent
  fun_cases contentOf children nodes with
  | case1 =>
    rintro rfl
    exact ⟨isProper_none htype, List.nil_subset _⟩
  | case2 =>
    rintro rfl
    exact ⟨isProper_none htype, List.nil_subset _⟩
  | case3 =>
    rintro rfl
    exact ⟨isProper_none htype, List.nil_subset _⟩
  | case4 items hitems =>
    rintro rfl
    have hnodes : nodes ≠ [] := by
      rintro rfl
      exact hitems (List.length_eq_zero_iff.1 hlength.symm)
    exact ⟨isProper_nodes htype hnodes, List.Subset.refl _⟩
  | case5 members =>
    rintro rfl
    have hnodes : nodes ≠ [] := by
      rintro rfl
      cases hlength
    exact ⟨isProper_nodes htype hnodes, List.Subset.refl _⟩
  | case6 leaf hnull hempty harray hobject =>
    rintro rfl
    have hleaf := isScalar_of_forall_ne hnull harray hobject
    exact ⟨isProper_leaf htype hleaf, List.nil_subset _⟩

/-- What was read from a document is what documents describe. -/
theorem allProper_of_readValue (json : Json) :
    ∀ path node, readValue path json = .ok node → node.AllProper := by
  induction json using Json.document_induction with
  | step json ih =>
    intro path node hnode
    obtain ⟨members, nodes, rfl, _, hne, _, hitems, hcontent⟩ := readValue_eq_ok_iff.1 hnode
    have hlength := (readItems_eq_ok_iff.1 hitems).1
    obtain ⟨hproper, hchildNodes⟩ := isProper_of_contentOf hne hcontent.symm hlength
    rw [allProper_iff]
    refine ⟨hproper, ?_⟩
    intro child hchild
    obtain ⟨i, item, hitem, hread⟩ := exists_item_of_mem_readItems hitems (hchildNodes hchild)
    exact ih item hitem _ child hread

theorem toJsonAll_eq_map (nodes : List Node) : toJsonAll nodes = nodes.map toJson := by
  induction nodes with
  | nil => rfl
  | cons node nodes ih => rw [toJsonAll, ih, List.map_cons]

/-- The members of a document, as reading looks them up. -/
theorem exists_members_toJson (node : Node) :
    ∃ members, node.toJson = .object members ∧
      Fields.get? "type" members = some (.string node.type) ∧
      Fields.get? "props" members = node.props.map .object ∧
      Fields.get? "children" members = toJsonBelow node.children := by
  obtain ⟨type, props, children⟩ := node
  simp only [toJson, document]
  cases props with
  | none =>
    cases toJsonBelow children with
    | none => exact ⟨_, rfl, rfl, rfl, rfl⟩
    | some below => exact ⟨_, rfl, rfl, rfl, rfl⟩
  | some props =>
    cases toJsonBelow children with
    | none => exact ⟨_, rfl, rfl, rfl, rfl⟩
    | some below => exact ⟨_, rfl, rfl, rfl, rfl⟩

/-- Below a proper node there is in its document what there is in the node. -/
theorem IsProper.content {node : Node} (h : node.IsProper) :
    Json.documentsIn (toJsonBelow node.children) = node.childNodes.map toJson ∧
      contentOf (toJsonBelow node.children) node.childNodes = node.children := by
  obtain ⟨type, props, children⟩ := node
  cases children with
  | none => exact ⟨rfl, rfl⟩
  | leaf value =>
    have hscalar := h.leaf value rfl
    cases value with
    | string s => exact ⟨rfl, rfl⟩
    | number n => exact ⟨rfl, rfl⟩
    | bool b => exact ⟨rfl, rfl⟩
    | null => cases hscalar
    | array items => cases hscalar
    | object members => cases hscalar
  | nodes nodes =>
    refine ⟨toJsonAll_eq_map nodes, ?_⟩
    cases nodes with
    | nil => exact absurd rfl (h.nodes [] rfl)
    | cons node nodes => rfl

/-- The document of a tree of proper nodes reads as the tree. -/
theorem readValue_toJson (node : Node) :
    node.AllProper → ∀ path, readValue path node.toJson = .ok node := by
  induction node using node_induction with
  | step node ih =>
    intro hall path
    obtain ⟨hproper, hbelow⟩ := allProper_iff.1 hall
    obtain ⟨members, hjson, htype, hprops, hchildren⟩ := exists_members_toJson node
    obtain ⟨hdocuments, hcontent⟩ := hproper.content
    refine readValue_eq_ok_iff.2
      ⟨members, node.childNodes, hjson, htype, hproper.type, ?_, ?_, ?_⟩
    · rw [hprops]
      cases node.props with
      | none => exact .inl ⟨.inl rfl, rfl⟩
      | some props => exact .inr ⟨props, rfl, rfl⟩
    · rw [hjson, Json.childDocuments, hchildren, hdocuments, readItems_eq_ok_iff]
      refine ⟨(List.length_map toJson).symm, ?_⟩
      intro i item hitem
      rw [List.getElem?_map] at hitem
      obtain ⟨child, hchild, rfl⟩ := Option.map_eq_some_iff.1 hitem
      have hmem := List.mem_of_getElem? hchild
      exact ⟨child, hchild, ih child hmem (hbelow child hmem) _⟩
    · rw [hchildren, hcontent]

/-- Reading makes proper nodes only. -/
theorem allProper_of_ofJson {json : Json} {node : Node} (h : ofJson json = .ok node) :
    node.AllProper := by
  rw [ofJson_eq_readValue] at h
  exact allProper_of_readValue json .root node h

/-- Proper nodes are those that come back from their own documents. -/
theorem ofJson_toJson_eq_ok_iff {node : Node} : ofJson node.toJson = .ok node ↔ node.AllProper := by
  constructor
  · exact allProper_of_ofJson
  · intro h
    rw [ofJson_eq_readValue]
    exact readValue_toJson node h .root

theorem isScalar_of_same {first second : Json} (h : first.same second = true)
    (hfirst : first.isScalar = true) : second.isScalar = true := by
  cases first with
  | string s =>
    cases second with
    | string t => rfl
    | _ => cases h
  | number m =>
    cases second with
    | number n => rfl
    | _ => cases h
  | bool b =>
    cases second with
    | bool c => rfl
    | _ => cases h
  | null => cases hfirst
  | array items => cases hfirst
  | object members => cases hfirst

theorem exists_of_mem_sameAll {nodes others : List Node} {other : Node}
    (h : sameAll nodes others = true) (hother : other ∈ others) :
    ∃ node ∈ nodes, node.same other = true := by
  induction nodes generalizing others with
  | nil =>
    cases others with
    | nil => cases hother
    | cons _ _ => cases h
  | cons node nodes ih =>
    cases others with
    | nil => cases hother
    | cons first others =>
      rw [sameAll, Bool.and_eq_true] at h
      rcases List.mem_cons.1 hother with rfl | hmem
      · exact ⟨node, List.mem_cons_self, h.1⟩
      · obtain ⟨found, hfound, hsame⟩ := ih h.2 hmem
        exact ⟨found, List.mem_cons_of_mem _ hfound, hsame⟩

/-- Comparing numbers by value does not change which trees are proper. -/
theorem AllProper.of_same (node : Node) :
    node.AllProper → ∀ other, node.same other = true → other.AllProper := by
  induction node using node_induction with
  | step node ih =>
    intro hall other hsame
    obtain ⟨hproper, hbelow⟩ := allProper_iff.1 hall
    obtain ⟨type, props, children⟩ := node
    obtain ⟨type', props', children'⟩ := other
    simp only [same, Bool.and_eq_true, beq_iff_eq] at hsame
    obtain ⟨⟨rfl, _⟩, hchildren⟩ := hsame
    rw [allProper_iff]
    cases children with
    | none =>
      cases children' with
      | none => exact ⟨isProper_none hproper.type, by simp [childNodes]⟩
      | _ => cases hchildren
    | leaf value =>
      cases children' with
      | leaf value' =>
        have hscalar := isScalar_of_same hchildren (hproper.leaf value rfl)
        exact ⟨isProper_leaf hproper.type hscalar, by simp [childNodes]⟩
      | _ => cases hchildren
    | nodes nodes =>
      cases children' with
      | nodes others =>
        have hothers : others ≠ [] := by
          rintro rfl
          cases nodes with
          | nil => exact hproper.nodes [] rfl rfl
          | cons _ _ => cases hchildren
        refine ⟨isProper_nodes hproper.type hothers, ?_⟩
        intro child hchild
        obtain ⟨found, hfound, hsame⟩ := exists_of_mem_sameAll hchildren hchild
        exact ih found hfound (hbelow found hfound) child hsame
      | _ => cases hchildren

theorem sameAll_refl {nodes : List Node} (h : ∀ node ∈ nodes, node.same node = true) :
    sameAll nodes nodes = true := by
  induction nodes with
  | nil => rfl
  | cons node nodes ih =>
    obtain ⟨hnode, hnodes⟩ := List.forall_mem_cons.1 h
    rw [sameAll, hnode, ih hnodes, Bool.and_self]

theorem same_refl (node : Node) : node.same node = true := by
  induction node using node_induction with
  | step node ih =>
    obtain ⟨type, props, children⟩ := node
    have hprops : sameProps props props = true := by
      cases props with
      | none => rfl
      | some props => exact Json.sameMembers_refl props
    have hchildren : sameBelow children children = true := by
      cases children with
      | none => rfl
      | leaf value => exact Json.same_refl value
      | nodes nodes => exact sameAll_refl ih
    rw [same, hprops, hchildren, beq_self_eq_true]
    rfl

/-- The document of a node reads as the node, or as an equal one, just if the
whole tree is of the kind that documents describe. What is read from a document
always is, so its own document is a canonical form: it reads as the same node,
writing it once more changes nothing, and it is built like the document that was
read, whatever is built with, unless the keys are random. -/
theorem document_round_trip :
    (∀ node : Node, (ofJson node.toJson = .ok node ↔ node.AllProper) ∧
      ((∃ other, ofJson node.toJson = .ok other ∧ other.same node = true) ↔ node.AllProper)) ∧
    ∀ json node, ofJson json = .ok node →
      node.AllProper ∧ ofJson node.toJson = .ok node ∧
      canonical json = .ok node.toJson ∧ canonical node.toJson = .ok node.toJson ∧
      ∀ (E : Type) (first second : Interpreter E), first.context = second.context →
        first.registry = second.registry → first.options = second.options →
        first.options.keys ≠ .random → first.buildJson json = second.buildJson node.toJson := by
  refine ⟨?_, ?_⟩
  · intro node
    refine ⟨ofJson_toJson_eq_ok_iff, ?_, ?_⟩
    · rintro ⟨other, hread, hsame⟩
      exact AllProper.of_same other (allProper_of_ofJson hread) node hsame
    · intro h
      exact ⟨node, ofJson_toJson_eq_ok_iff.2 h, same_refl node⟩
  · intro json node hread
    have hproper := allProper_of_ofJson hread
    have hagain := ofJson_toJson_eq_ok_iff.2 hproper
    refine ⟨hproper, hagain, ?_, ?_, ?_⟩
    · rw [canonical, hread, Except.map]
    · rw [canonical, hagain, Except.map]
    · intro E first second hcontext hregistry hoptions hkeys
      rw [Interpreter.buildJson, Interpreter.buildJson, hread, hagain]
      exact Interpreter.build_eq_of_keys hcontext hregistry hoptions hkeys node

/-- A button in short: no list around its only child, and props that are null. -/
def shorthand : Json :=
  .object [("children", .object [("children", .string "Go"), ("type", .string "Text")]),
    ("props", .null), ("type", .string "Button")]

/-- Buttons and texts of which only the keys are kept. -/
def keyed (mint : NodePath → String) : Interpreter (Option Value) where
  context := .empty
  registry := (Registry.empty.register "Button" fun props _ => Fields.get? "key" props).register
    "Text" fun props _ => Fields.get? "key" props
  mint := mint

/-- The shorthand and its long form are read as one template, and what would be minted for
its keys makes no difference. -/
theorem document_round_trip_shorthand :
    ∃ node, ofJson shorthand = .ok node ∧ node.AllProper ∧
      canonical shorthand = .ok node.toJson ∧ canonical node.toJson = .ok node.toJson ∧
      (keyed fun _ => "a").options.keys ≠ .random ∧
      (keyed fun _ => "a").buildJson shorthand = (keyed fun _ => "b").buildJson node.toJson ∧
      ¬ ((ofType "Text").withText .null).AllProper := by
  have hkeys : (keyed fun _ => "a").options.keys ≠ .random := by decide
  have hread : ofJson shorthand =
      .ok ((ofType "Button").withChild ((ofType "Text").withText (.string "Go"))) := rfl
  obtain ⟨hproper, _, hcanonical, hagain, hbuild⟩ := document_round_trip.2 _ _ hread
  refine ⟨_, hread, hproper, hcanonical, hagain, hkeys, hbuild _ _ _ rfl rfl rfl hkeys, ?_⟩
  rw [← (document_round_trip.1 _).1]
  intro h
  cases h

end Node

end UiTemplate
