import UiTemplate.Proofs.Template.Positions
import UiTemplate.Template.Reader

/-!
What the steps of reading a template come to. A node is put together from its
type, its props and what was read from the documents below it; these are the
items of its list of children, or a single document that stands without a list.
Every value is read in the same way, wherever it stands, only that a value that
is no object breaks another rule as a child than as the whole document. Proofs
about reading go by induction on documents and do not look inside the recursion.
-/

namespace UiTemplate

theorem Fields.sizeOf_lt_of_get? {name : String} {members : List (String × Json)} {value : Json}
    (h : Fields.get? name members = some value) : sizeOf value < sizeOf members := by
  induction members with
  | nil => cases h
  | cons member members ih =>
    obtain ⟨key, first⟩ := member
    rw [Fields.get?] at h
    simp only [List.cons.sizeOf_spec, Prod.mk.sizeOf_spec]
    split at h
    · cases h
      omega
    · have := ih h
      omega

def IsMissing (member : Option Json) : Prop :=
  member = none ∨ member = some .null

namespace Json

def isObject : Json → Bool
  | .object _ => true
  | _ => false

theorem exists_members_of_isObject {json : Json} (h : json.isObject = true) :
    ∃ members, json = .object members := by
  cases json with
  | object members => exact ⟨members, rfl⟩
  | null => cases h
  | bool b => cases h
  | number n => cases h
  | string s => cases h
  | array items => cases h

/-- The documents of child nodes in what a node has as its children. -/
def documentsIn : Option Json → List Json
  | some (.array items) => items
  | some (.object members) => [.object members]
  | _ => []

def childDocuments : Json → List Json
  | .object members => documentsIn (Fields.get? "children" members)
  | _ => []

def documentAt? (json : Json) : NodePath → Option Json
  | [] => some json
  | index :: path => json.childDocuments[index]?.bind fun child => child.documentAt? path

theorem documentAt?_cons_eq_some_iff {json value : Json} {index : Nat} {path : NodePath} :
    json.documentAt? (index :: path) = some value ↔
      ∃ child, json.childDocuments[index]? = some child ∧ child.documentAt? path = some value :=
  Option.bind_eq_some_iff

theorem documentAt?_append (json : Json) (upper lower : NodePath) :
    json.documentAt? (upper ++ lower) =
      (json.documentAt? upper).bind fun document => document.documentAt? lower := by
  induction upper generalizing json with
  | nil => rfl
  | cons index upper ih =>
    simp only [List.cons_append, documentAt?]
    cases json.childDocuments[index]? with
    | none => rfl
    | some child => exact ih child

theorem sizeOf_lt_of_mem_documentsIn {children child : Json}
    (h : child ∈ documentsIn (some children)) : sizeOf child ≤ sizeOf children := by
  cases children with
  | null => cases h
  | bool b => cases h
  | number n => cases h
  | string s => cases h
  | array items =>
    have hlt := List.sizeOf_lt_of_mem h
    simp only [documentsIn, Json.array.sizeOf_spec] at hlt ⊢
    omega
  | object members =>
    obtain rfl := List.mem_singleton.1 h
    exact Nat.le_refl _

theorem sizeOf_lt_of_mem_childDocuments {json child : Json} (h : child ∈ json.childDocuments) :
    sizeOf child < sizeOf json := by
  cases json with
  | object members =>
    rw [childDocuments] at h
    cases hchildren : Fields.get? "children" members with
    | none =>
      rw [hchildren] at h
      cases h
    | some children =>
      rw [hchildren] at h
      have hle := sizeOf_lt_of_mem_documentsIn h
      have hlt := Fields.sizeOf_lt_of_get? hchildren
      simp only [Json.object.sizeOf_spec]
      omega
  | null => cases h
  | bool b => cases h
  | number n => cases h
  | string s => cases h
  | array items => cases h

/-- What a document inherits from the documents of its child nodes holds of
every document. -/
@[elab_as_elim]
theorem document_induction {motive : Json → Prop}
    (step : ∀ json, (∀ child ∈ json.childDocuments, motive child) → motive json) (json : Json) :
    motive json :=
  step json fun child _h => document_induction step child
termination_by sizeOf json
decreasing_by exact sizeOf_lt_of_mem_childDocuments _h

end Json

namespace Node

variable {path : NodePath} {index : Nat} {members : List (String × Json)}

/-- What is below a node that has these children and from which these nodes
were read. -/
def contentOf (children : Option Json) (nodes : List Node) : Children :=
  match children with
  | none | some .null | some (.array []) => .none
  | some (.array _) | some (.object _) => .nodes nodes
  | some leaf => .leaf leaf

/-- Reads a value, as the whole document or as a child. -/
def readValue (path : NodePath) : Json → Except TemplateError Node
  | .object members => readAt path (.object members)
  | _ => .error (.fault (if path = .root then .notAnObject else .invalidChildren) path)

/-- A document is read like one of its parts, from the root on. -/
theorem ofJson_eq_readValue (json : Json) : ofJson json = readValue .root json := by
  cases json with
  | object members => rfl
  | null => rfl
  | bool b => rfl
  | number n => rfl
  | string s => rfl
  | array items => rfl

theorem child_ne_root (path : NodePath) (index : Nat) : path.child index ≠ .root := by
  simp [NodePath.child, NodePath.root]

theorem readItems_cons (path : NodePath) (index : Nat) (item : Json) (items : List Json) :
    readItems path index (item :: items) = (do
      let node ← readValue (path.child index) item
      let nodes ← readItems path (index + 1) items
      return node :: nodes) := by
  have hchild := child_ne_root path index
  cases item with
  | object members => simp only [readItems, readValue, readAt]
  | null => simp only [readItems, readValue, if_neg hchild]
  | bool b => simp only [readItems, readValue, if_neg hchild]
  | number n => simp only [readItems, readValue, if_neg hchild]
  | string s => simp only [readItems, readValue, if_neg hchild]
  | array items => simp only [readItems, readValue, if_neg hchild]

theorem readChildren_eq (path : NodePath) (children : Json) :
    readChildren path children =
      (readItems path 0 (Json.documentsIn (some children))).map (contentOf (some children)) := by
  cases children with
  | object members =>
    simp only [readChildren, Json.documentsIn, readItems_cons, readValue, readAt, readItems]
    cases assemble (path.child 0) members (readBelow (path.child 0) members) with
    | error error => rfl
    | ok node => rfl
  | array items =>
    cases items with
    | nil => simp only [readChildren, Json.documentsIn, readItems]; rfl
    | cons item items =>
      simp only [readChildren, Json.documentsIn]
      rfl
  | null => simp only [readChildren, Json.documentsIn, readItems]; rfl
  | bool b => simp only [readChildren, Json.documentsIn, readItems]; rfl
  | number n => simp only [readChildren, Json.documentsIn, readItems]; rfl
  | string s => simp only [readChildren, Json.documentsIn, readItems]; rfl

theorem readBelow_eq (path : NodePath) (members : List (String × Json)) :
    readBelow path members =
      (readItems path 0 (Json.documentsIn (Fields.get? "children" members))).map
        (contentOf (Fields.get? "children" members)) := by
  induction members with
  | nil => simp only [readBelow, Fields.get?, Json.documentsIn, readItems]; rfl
  | cons member members ih =>
    obtain ⟨name, value⟩ := member
    rw [readBelow, Fields.get?]
    split
    · exact readChildren_eq path value
    · exact ih

theorem readValue_object (path : NodePath) (members : List (String × Json)) :
    readValue path (.object members) =
      assemble path members
        ((readItems path 0 (Json.object members).childDocuments).map
          (contentOf (Fields.get? "children" members))) := by
  rw [readValue, readAt, readBelow_eq, Json.childDocuments]

/-- What is no object is reported as such at the root, and as a wrong child elsewhere. -/
theorem readValue_of_isObject_eq_false {json : Json} (h : json.isObject = false)
    (path : NodePath) :
    readValue path json =
      .error (.fault (if path = .root then .notAnObject else .invalidChildren) path) := by
  cases json with
  | object members => cases h
  | null => rfl
  | bool b => rfl
  | number n => rfl
  | string s => rfl
  | array items => rfl

theorem map_eq_ok_iff {α β : Type} {first : Except TemplateError α} {f : α → β} {value : β} :
    first.map f = .ok value ↔ ∃ middle, first = .ok middle ∧ f middle = value := by
  cases first with
  | error error => simp [Except.map]
  | ok middle => simp [Except.map]

theorem map_eq_error_iff {α β : Type} {first : Except TemplateError α} {f : α → β}
    {error : TemplateError} : first.map f = .error error ↔ first = .error error := by
  cases first with
  | error other => simp [Except.map]
  | ok middle => simp [Except.map]

theorem bind_eq_ok_iff {α β : Type} {first : Except TemplateError α}
    {next : α → Except TemplateError β} {value : β} :
    (first >>= next) = .ok value ↔ ∃ middle, first = .ok middle ∧ next middle = .ok value := by
  cases first with
  | error error =>
    constructor
    · intro h
      cases h
    · rintro ⟨_, hmiddle, _⟩
      cases hmiddle
  | ok middle =>
    constructor
    · intro h
      exact ⟨middle, rfl, h⟩
    · rintro ⟨_, hmiddle, h⟩
      cases hmiddle
      exact h

theorem bind_eq_error_iff {α β : Type} {first : Except TemplateError α}
    {next : α → Except TemplateError β} {error : TemplateError} :
    (first >>= next) = .error error ↔
      first = .error error ∨ ∃ middle, first = .ok middle ∧ next middle = .error error := by
  cases first with
  | error other =>
    constructor
    · intro h
      cases h
      exact .inl rfl
    · rintro (h | ⟨_, hmiddle, _⟩)
      · cases h
        rfl
      · cases hmiddle
  | ok middle =>
    constructor
    · intro h
      exact .inr ⟨middle, rfl, h⟩
    · rintro (h | ⟨_, hmiddle, h⟩)
      · cases h
      · cases hmiddle
        exact h

theorem readType_eq_ok_iff {member : Option Json} {type : String} :
    readType path member = .ok type ↔ member = some (.string type) ∧ type ≠ "" := by
  fun_cases readType path member with
  | case1 => simp
  | case2 => simp
  | case3 found hempty =>
    obtain rfl : found = "" := by simpa using hempty
    constructor
    · intro h
      cases h
    · rintro ⟨hmember, hne⟩
      cases hmember
      exact absurd rfl hne
  | case4 found hempty =>
    have hne : found ≠ "" := by simpa using hempty
    constructor
    · intro h
      cases h
      exact ⟨rfl, hne⟩
    · rintro ⟨hmember, _⟩
      cases hmember
      rfl
  | case5 value _ hstring =>
    constructor
    · intro h
      cases h
    · rintro ⟨hmember, _⟩
      cases hmember
      exact absurd rfl (hstring type)

/-- A type that cannot be read is missing, or something else stands there. -/
theorem readType_eq_error {member : Option Json} {error : TemplateError} :
    readType path member = .error error →
      (error = .fault .missingType path ∧ IsMissing member) ∨
        (error = .fault .invalidType path ∧ ¬ IsMissing member ∧
          ∀ type, member = some (.string type) → type = "") := by
  fun_cases readType path member with
  | case1 =>
    intro h
    cases h
    exact .inl ⟨rfl, .inl rfl⟩
  | case2 =>
    intro h
    cases h
    exact .inl ⟨rfl, .inr rfl⟩
  | case3 found hempty =>
    intro h
    cases h
    exact .inr ⟨rfl, by simp [IsMissing], by simpa using hempty⟩
  | case4 found hempty =>
    intro h
    cases h
  | case5 value hnull hstring =>
    intro h
    cases h
    refine .inr ⟨rfl, by simpa [IsMissing] using hnull, ?_⟩
    intro type hmember
    exact absurd (Option.some.inj hmember) (hstring type)

/-- The props that a member stands for. -/
def AreProps (member : Option Json) (props : Option (List (String × Json))) : Prop :=
  (IsMissing member ∧ props = none) ∨
    ∃ members, member = some (.object members) ∧ props = some members

theorem readProps_eq_ok_iff {member : Option Json} {props : Option (List (String × Json))} :
    readProps path member = .ok props ↔ AreProps member props := by
  fun_cases readProps path member with
  | case1 => simp [AreProps, IsMissing, eq_comm]
  | case2 => simp [AreProps, IsMissing, eq_comm]
  | case3 members => simp [AreProps, IsMissing, eq_comm]
  | case4 value hnull hobject =>
    constructor
    · intro h
      cases h
    · rintro (⟨hmissing | hmissing, _⟩ | ⟨members, hmember, _⟩)
      · cases hmissing
      · exact absurd (Option.some.inj hmissing) hnull
      · exact absurd (Option.some.inj hmember) (hobject members)

theorem readProps_eq_error {member : Option Json} {error : TemplateError} :
    readProps path member = .error error →
      error = .fault .invalidProps path ∧ ¬ IsMissing member ∧
        ∀ props, member ≠ some (.object props) := by
  fun_cases readProps path member with
  | case1 =>
    intro h
    cases h
  | case2 =>
    intro h
    cases h
  | case3 members =>
    intro h
    cases h
  | case4 value hnull hobject =>
    intro h
    cases h
    refine ⟨rfl, by simpa [IsMissing] using hnull, ?_⟩
    intro members hmember
    exact hobject members (Option.some.inj hmember)

theorem assemble_eq_ok_iff {below : Except TemplateError Children} {node : Node} :
    assemble path members below = .ok node ↔
      readType path (Fields.get? "type" members) = .ok node.type ∧
        readProps path (Fields.get? "props" members) = .ok node.props ∧
        below = .ok node.children := by
  obtain ⟨type, props, children⟩ := node
  simp only [assemble, bind_eq_ok_iff]
  constructor
  · rintro ⟨_, htype, _, hprops, _, hbelow, hnode⟩
    cases hnode
    exact ⟨htype, hprops, hbelow⟩
  · rintro ⟨htype, hprops, hbelow⟩
    exact ⟨type, htype, props, hprops, children, hbelow, rfl⟩

/-- The type is looked at first, then the props, then what is below. -/
theorem assemble_eq_error {below : Except TemplateError Children} {error : TemplateError}
    (h : assemble path members below = .error error) :
    readType path (Fields.get? "type" members) = .error error ∨
      ∃ type, readType path (Fields.get? "type" members) = .ok type ∧
        (readProps path (Fields.get? "props" members) = .error error ∨
          ∃ props, readProps path (Fields.get? "props" members) = .ok props ∧
            below = .error error) := by
  rw [assemble, bind_eq_error_iff] at h
  rcases h with htype | ⟨type, htype, h⟩
  · exact .inl htype
  refine .inr ⟨type, htype, ?_⟩
  rw [bind_eq_error_iff] at h
  rcases h with hprops | ⟨props, hprops, h⟩
  · exact .inl hprops
  refine .inr ⟨props, hprops, ?_⟩
  rw [bind_eq_error_iff] at h
  rcases h with hbelow | ⟨_, _, h⟩
  · exact hbelow
  · cases h

/-- A node is read if its type and props are as they should be and all of its children are
read. -/
theorem readValue_eq_ok_iff {json : Json} {node : Node} :
    readValue path json = .ok node ↔
      ∃ members nodes, json = .object members ∧
        Fields.get? "type" members = some (.string node.type) ∧ node.type ≠ "" ∧
        AreProps (Fields.get? "props" members) node.props ∧
        readItems path 0 json.childDocuments = .ok nodes ∧
        node.children = contentOf (Fields.get? "children" members) nodes := by
  cases hobject : json.isObject with
  | false =>
    rw [readValue_of_isObject_eq_false hobject]
    constructor
    · intro h
      cases h
    · rintro ⟨members, nodes, rfl, _⟩
      cases hobject
  | true =>
    obtain ⟨members, rfl⟩ := Json.exists_members_of_isObject hobject
    rw [readValue_object, assemble_eq_ok_iff, readType_eq_ok_iff, readProps_eq_ok_iff,
      map_eq_ok_iff]
    constructor
    · rintro ⟨⟨htype, hne⟩, hprops, nodes, hitems, hcontent⟩
      exact ⟨members, nodes, rfl, htype, hne, hprops, hitems, hcontent.symm⟩
    · rintro ⟨_, nodes, hmembers, htype, hne, hprops, hitems, hcontent⟩
      cases hmembers
      exact ⟨⟨htype, hne⟩, hprops, nodes, hitems, hcontent.symm⟩

/-- Items are read when each of them is. -/
theorem readItems_eq_ok_iff {items : List Json} {nodes : List Node} :
    readItems path index items = .ok nodes ↔
      nodes.length = items.length ∧ ∀ i item, items[i]? = some item →
        ∃ node, nodes[i]? = some node ∧ readValue (path.child (index + i)) item = .ok node := by
  induction items generalizing index nodes with
  | nil =>
    rw [readItems]
    constructor
    · intro h
      cases h
      exact ⟨rfl, fun i item hitem => by simp at hitem⟩
    · rintro ⟨hlength, _⟩
      rw [List.length_eq_zero_iff.1 hlength]
  | cons item items ih =>
    simp only [readItems_cons, bind_eq_ok_iff]
    constructor
    · rintro ⟨node, hnode, rest, hrest, hnodes⟩
      cases hnodes
      obtain ⟨hlength, hall⟩ := ih.1 hrest
      refine ⟨congrArg Nat.succ hlength, ?_⟩
      intro i other hother
      cases i with
      | zero =>
        obtain rfl : item = other := by simpa using hother
        exact ⟨node, rfl, hnode⟩
      | succ i =>
        obtain ⟨found, hfound, hread⟩ := hall i other (by simpa using hother)
        refine ⟨found, by simpa using hfound, ?_⟩
        rwa [NodePath.child_add_succ]
    · rintro ⟨hlength, hall⟩
      obtain ⟨node, hnode, hread⟩ := hall 0 item rfl
      cases nodes with
      | nil => cases hlength
      | cons first rest =>
        obtain rfl : first = node := by simpa using hnode
        refine ⟨first, hread, rest, ih.2 ⟨Nat.succ.inj hlength, ?_⟩, rfl⟩
        intro i other hother
        obtain ⟨found, hfound, hread⟩ := hall (i + 1) other (by simpa using hother)
        refine ⟨found, by simpa using hfound, ?_⟩
        rwa [← NodePath.child_add_succ]

/-- The first item that cannot be read decides the error. -/
theorem readItems_eq_error {items : List Json} {error : TemplateError}
    (h : readItems path index items = .error error) :
    ∃ i item, items[i]? = some item ∧ readValue (path.child (index + i)) item = .error error ∧
      ∀ j other, j < i → items[j]? = some other →
        ∃ node, readValue (path.child (index + j)) other = .ok node := by
  induction items generalizing index with
  | nil => cases h
  | cons item items ih =>
    rw [readItems_cons, bind_eq_error_iff] at h
    rcases h with h | ⟨node, hnode, h⟩
    · exact ⟨0, item, rfl, h, fun j _ hj => absurd hj (Nat.not_lt_zero j)⟩
    · rw [bind_eq_error_iff] at h
      rcases h with h | ⟨_, _, h⟩
      · obtain ⟨i, found, hfound, hread, hearlier⟩ := ih h
        refine ⟨i + 1, found, by simpa using hfound, ?_, ?_⟩
        · rwa [NodePath.child_add_succ]
        · intro j other hj hother
          cases j with
          | zero =>
            obtain rfl : item = other := by simpa using hother
            exact ⟨node, hnode⟩
          | succ j =>
            obtain ⟨read, hread⟩ :=
              hearlier j other (Nat.lt_of_succ_lt_succ hj) (by simpa using hother)
            refine ⟨read, ?_⟩
            rwa [NodePath.child_add_succ]
      · cases h

end Node

end UiTemplate
