import UiTemplate.Proofs.Template.Reading

/-!
Which documents are templates, and what is wrong with the others. The grammar
says what is accepted. Next to it stand the rules that a value can break where it
stands, and the order in which a walk through the document comes across them. A
document that is refused is refused for the first of all its faults, with the
position that leads to it.
-/

namespace UiTemplate

namespace Json

mutual

/-- The documents that are nodes. -/
inductive IsNode : Json → Prop where
  | node {members : List (String × Json)} {type : String}
    (htype : Fields.get? "type" members = some (.string type)) (hname : type ≠ "")
    (hprops : IsMissing (Fields.get? "props" members) ∨
      ∃ props, Fields.get? "props" members = some (.object props))
    (hchildren : IsContent (Fields.get? "children" members)) : IsNode (.object members)

/-- What can stand as the children of a node. -/
inductive IsContent : Option Json → Prop where
  | missing : IsContent none
  | null : IsContent (some .null)
  | string (s : String) : IsContent (some (.string s))
  | number (n : Number) : IsContent (some (.number n))
  | truth (b : Bool) : IsContent (some (.bool b))
  | one {members : List (String × Json)} (h : IsNode (.object members)) :
    IsContent (some (.object members))
  | many {items : List Json} (h : ∀ item ∈ items, IsNode item) : IsContent (some (.array items))

end

theorem isContent_iff {children : Option Json} :
    IsContent children ↔ ∀ child ∈ documentsIn children, IsNode child := by
  constructor
  · intro h
    cases h with
    | one h =>
      intro child hchild
      rw [List.mem_singleton.1 hchild]
      exact h
    | many h => exact h
    | missing => simp [documentsIn]
    | null => simp [documentsIn]
    | string s => simp [documentsIn]
    | number n => simp [documentsIn]
    | truth b => simp [documentsIn]
  · intro h
    cases children with
    | none => exact .missing
    | some children =>
      cases children with
      | null => exact .null
      | bool b => exact .truth b
      | number n => exact .number n
      | string s => exact .string s
      | array items => exact .many h
      | object members => exact .one (h _ (List.mem_singleton_self _))

end Json

namespace Fault

/-- When the rule is looked at, for one value. -/
def rank : Fault → Nat
  | .notAnObject | .invalidChildren => 0
  | .missingType | .invalidType => 1
  | .invalidProps => 2

end Fault

/-- The rules that a value breaks where it stands, whatever is below it. -/
inductive BreaksAt (position : NodePath) : Json → Fault → Prop where
  | notAnObject {value : Json} (hroot : position = .root) (hvalue : value.isObject = false) :
    BreaksAt position value .notAnObject
  | invalidChildren {value : Json} (hchild : position ≠ .root) (hvalue : value.isObject = false) :
    BreaksAt position value .invalidChildren
  | missingType {members : List (String × Json)}
    (hmissing : IsMissing (Fields.get? "type" members)) :
    BreaksAt position (.object members) .missingType
  | invalidType {members : List (String × Json)}
    (hpresent : ¬ IsMissing (Fields.get? "type" members))
    (htype : ∀ type, Fields.get? "type" members = some (.string type) → type = "") :
    BreaksAt position (.object members) .invalidType
  | invalidProps {members : List (String × Json)}
    (hpresent : ¬ IsMissing (Fields.get? "props" members))
    (hprops : ∀ props, Fields.get? "props" members ≠ some (.object props)) :
    BreaksAt position (.object members) .invalidProps

/-- A rule is broken at a position of a document that stands at `base` itself. -/
def Breaks (base : NodePath) (document : Json) (path : NodePath) (rule : Fault) : Prop :=
  ∃ value, document.documentAt? path = some value ∧ BreaksAt (base ++ path) value rule

/-- A walk comes across the first fault before the second: it looks at a value
before what is below it, and at all that is below one child before the next. -/
def Precedes (first second : NodePath × Fault) : Prop :=
  List.Lex (· < ·) first.1 second.1 ∨ first.1 = second.1 ∧ first.2.rank < second.2.rank

/-- A rule is broken and no other fault of the document comes before. -/
structure IsFirstFault (base : NodePath) (document : Json) (path : NodePath) (rule : Fault) :
    Prop where
  breaks : Breaks base document path rule
  first : ∀ other otherRule, Breaks base document other otherRule →
    (other = path ∧ otherRule = rule) ∨ Precedes (path, rule) (other, otherRule)

variable {base : NodePath} {document : Json} {rule : Fault}

theorem breaks_root : Breaks base document [] rule ↔ BreaksAt base document rule := by
  constructor
  · rintro ⟨value, hvalue, hbreaks⟩
    cases hvalue
    rwa [List.append_nil] at hbreaks
  · intro hbreaks
    exact ⟨document, rfl, by rwa [List.append_nil]⟩

/-- Below its root a document breaks a rule where one of its children does. -/
theorem breaks_child {index : Nat} {path : NodePath} :
    Breaks base document (index :: path) rule ↔
      ∃ child, document.childDocuments[index]? = some child ∧
        Breaks (base.child index) child path rule := by
  have hpath : base ++ index :: path = base.child index ++ path := by simp [NodePath.child]
  constructor
  · rintro ⟨value, hvalue, hbreaks⟩
    obtain ⟨child, hchild, hat⟩ := Json.documentAt?_cons_eq_some_iff.1 hvalue
    exact ⟨child, hchild, value, hat, by rwa [← hpath]⟩
  · rintro ⟨child, hchild, value, hat, hbreaks⟩
    exact ⟨value, Json.documentAt?_cons_eq_some_iff.2 ⟨child, hchild, hat⟩, by rwa [hpath]⟩

theorem not_breaks_of_children (hhere : ∀ rule, ¬ BreaksAt base document rule)
    (hchildren : ∀ index child, document.childDocuments[index]? = some child →
      ∀ path rule, ¬ Breaks (base.child index) child path rule) (path : NodePath) (rule : Fault) :
    ¬ Breaks base document path rule := by
  intro hbreaks
  cases path with
  | nil => exact hhere rule (breaks_root.1 hbreaks)
  | cons index path =>
    obtain ⟨child, hchild, hbelow⟩ := breaks_child.1 hbreaks
    exact hchildren index child hchild path rule hbelow

/-- A fault of a value comes before all faults below the value. -/
theorem isFirstFault_here (hbreaks : BreaksAt base document rule)
    (hfirst : ∀ other, BreaksAt base document other → other = rule ∨ rule.rank < other.rank) :
    IsFirstFault base document [] rule := by
  refine ⟨breaks_root.2 hbreaks, ?_⟩
  intro path other hother
  cases path with
  | nil =>
    rcases hfirst other (breaks_root.1 hother) with heq | hlt
    · exact .inl ⟨rfl, heq⟩
    · exact .inr (.inr ⟨rfl, hlt⟩)
  | cons index path => exact .inr (.inl .nil)

/-- The first fault of a child is that of the whole document if there is none at
the document itself and none in the children before. -/
theorem isFirstFault_child {index : Nat} {child : Json} {path : NodePath}
    (hhere : ∀ rule, ¬ BreaksAt base document rule)
    (hchild : document.childDocuments[index]? = some child)
    (hearlier : ∀ j other, j < index → document.childDocuments[j]? = some other →
      ∀ path rule, ¬ Breaks (base.child j) other path rule)
    (hfault : IsFirstFault (base.child index) child path rule) :
    IsFirstFault base document (index :: path) rule := by
  refine ⟨breaks_child.2 ⟨child, hchild, hfault.breaks⟩, ?_⟩
  intro position otherRule hother
  cases position with
  | nil => exact absurd (breaks_root.1 hother) (hhere otherRule)
  | cons j position =>
    obtain ⟨other, hget, hbelow⟩ := breaks_child.1 hother
    rcases Nat.lt_trichotomy j index with hlt | rfl | hlt
    · exact absurd hbelow (hearlier j other hlt hget position otherRule)
    · rw [hchild] at hget
      cases hget
      rcases hfault.first position otherRule hbelow with ⟨rfl, rfl⟩ | hlex | ⟨rfl, hrank⟩
      · exact .inl ⟨rfl, rfl⟩
      · exact .inr (.inl (.cons hlex))
      · exact .inr (.inr ⟨rfl, hrank⟩)
    · exact .inr (.inl (.rel hlt))

theorem Precedes.asymm {first second : NodePath × Fault} (h : Precedes first second) :
    ¬ Precedes second first := by
  have hlex : ∀ {a b : NodePath}, List.Lex (· < ·) a b → ¬ List.Lex (· < ·) b a :=
    List.lex_asymm Nat.lt_asymm
  rcases h with h | ⟨heq, hrank⟩
  · rintro (h' | ⟨heq, _⟩)
    · exact hlex h h'
    · rw [heq] at h
      exact hlex h h
  · rintro (h' | ⟨_, hrank'⟩)
    · rw [heq] at h'
      exact hlex h' h'
    · exact Nat.lt_asymm hrank hrank'

/-- There is at most one first fault. -/
theorem IsFirstFault.unique {path other : NodePath} {otherRule : Fault}
    (h : IsFirstFault base document path rule)
    (h' : IsFirstFault base document other otherRule) : other = path ∧ otherRule = rule := by
  rcases h.first other otherRule h'.breaks with heq | hprecedes
  · exact heq
  rcases h'.first path rule h.breaks with ⟨hpath, hrule⟩ | hprecedes'
  · exact ⟨hpath.symm, hrule.symm⟩
  · exact absurd hprecedes' hprecedes.asymm

theorem exists_items_of_documentsIn {children : Option Json} {index : Nat} {value : Json}
    (h : (Json.documentsIn children)[index]? = some value) (hvalue : value.isObject = false) :
    ∃ items, children = some (.array items) ∧ items[index]? = some value := by
  revert h
  fun_cases Json.documentsIn children with
  | case1 items =>
    intro h
    exact ⟨items, rfl, h⟩
  | case2 members =>
    intro h
    obtain rfl : value = .object members := List.mem_singleton.1 (List.mem_of_getElem? h)
    cases hvalue
  | case3 =>
    intro h
    cases h

/-- A child that is no object is an item of a list of children. -/
theorem exists_item_of_isObject_eq_false {path : NodePath} {value : Json}
    (hpath : path ≠ .root) (hat : document.documentAt? path = some value)
    (hvalue : value.isObject = false) :
    ∃ parent index members items, path = NodePath.child parent index ∧
      document.documentAt? parent = some (.object members) ∧
      Fields.get? "children" members = some (.array items) ∧ items[index]? = some value := by
  have hsplit := List.dropLast_concat_getLast hpath
  rw [← hsplit, Json.documentAt?_append] at hat
  obtain ⟨parent, hparent, hat⟩ := Option.bind_eq_some_iff.1 hat
  obtain ⟨child, hchild, heq⟩ := Json.documentAt?_cons_eq_some_iff.1 hat
  cases heq
  cases parent with
  | object members =>
    obtain ⟨items, hitems, hitem⟩ := exists_items_of_documentsIn hchild hvalue
    exact ⟨_, _, members, items, hsplit.symm, hparent, hitems, hitem⟩
  | null => cases hchild
  | bool b => cases hchild
  | number n => cases hchild
  | string s => cases hchild
  | array items => cases hchild

theorem breaksAt_of_isObject_eq_false (base : NodePath) (h : document.isObject = false) :
    BreaksAt base document (if base = .root then .notAnObject else .invalidChildren) ∧
      ∀ other, BreaksAt base document other →
        other = if base = .root then .notAnObject else .invalidChildren := by
  constructor
  · split
    · next hroot => exact .notAnObject hroot h
    · next hchild => exact .invalidChildren hchild h
  · intro other hother
    cases hother with
    | notAnObject hroot _ => rw [if_pos hroot]
    | invalidChildren hchild _ => rw [if_neg hchild]
    | missingType _ => cases h
    | invalidType _ _ => cases h
    | invalidProps _ _ => cases h

/-- The type of a node is right or there is one fault in it. -/
theorem breaksAt_of_readType {members : List (String × Json)} {error : TemplateError}
    (h : Node.readType base (Fields.get? "type" members) = .error error) :
    ∃ rule, error = .fault rule base ∧ BreaksAt base (.object members) rule ∧
      ∀ other, BreaksAt base (.object members) other → other = rule ∨ rule.rank < other.rank := by
  rcases Node.readType_eq_error h with ⟨rfl, hmissing⟩ | ⟨rfl, hpresent, htype⟩
  · refine ⟨.missingType, rfl, .missingType hmissing, ?_⟩
    intro other hother
    cases hother with
    | notAnObject _ hvalue => cases hvalue
    | invalidChildren _ hvalue => cases hvalue
    | missingType _ => exact .inl rfl
    | invalidType hpresent _ => exact absurd hmissing hpresent
    | invalidProps _ _ => exact .inr (by decide)
  · refine ⟨.invalidType, rfl, .invalidType hpresent htype, ?_⟩
    intro other hother
    cases hother with
    | notAnObject _ hvalue => cases hvalue
    | invalidChildren _ hvalue => cases hvalue
    | missingType hmissing => exact absurd hmissing hpresent
    | invalidType _ _ => exact .inl rfl
    | invalidProps _ _ => exact .inr (by decide)

/-- With a type that can be read only the props can be wrong. -/
theorem eq_invalidProps_of_breaksAt {members : List (String × Json)} {type : String}
    (htype : Node.readType base (Fields.get? "type" members) = .ok type)
    (h : BreaksAt base (.object members) rule) :
    rule = .invalidProps ∧ ∀ props, ¬ Node.AreProps (Fields.get? "props" members) props := by
  obtain ⟨hmember, hne⟩ := Node.readType_eq_ok_iff.1 htype
  cases h with
  | notAnObject _ hvalue => cases hvalue
  | invalidChildren _ hvalue => cases hvalue
  | missingType hmissing => simp [IsMissing, hmember] at hmissing
  | invalidType _ hall => exact absurd (hall type hmember) hne
  | invalidProps hpresent hprops =>
    refine ⟨rfl, ?_⟩
    rintro props (⟨hmissing, _⟩ | ⟨members, hmember, _⟩)
    · exact hpresent hmissing
    · exact hprops members hmember

namespace Node

/-- Reading finds no fault or the first one. -/
theorem readValue_outcome (json : Json) :
    ∀ base, (∀ node, readValue base json = .ok node → ∀ path rule, ¬ Breaks base json path rule) ∧
      ∀ error, readValue base json = .error error →
        ∃ path rule, error = .fault rule (base ++ path) ∧ IsFirstFault base json path rule := by
  induction json using Json.document_induction with
  | step json ih =>
    -- Both halves at once: a child has the first fault if those before it have none
    have hchild : ∀ {index : Nat} {child : Json}, json.childDocuments[index]? = some child →
        child ∈ json.childDocuments := List.mem_of_getElem?
    intro base
    constructor
    · intro node hnode
      obtain ⟨members, nodes, rfl, htype, hne, hprops, hitems, _⟩ := readValue_eq_ok_iff.1 hnode
      apply not_breaks_of_children
      · intro rule hrule
        have hread : readType base (Fields.get? "type" members) = .ok node.type :=
          readType_eq_ok_iff.2 ⟨htype, hne⟩
        exact (eq_invalidProps_of_breaksAt hread hrule).2 _ hprops
      · intro index child hget
        obtain ⟨node, _, hread⟩ := (readItems_eq_ok_iff.1 hitems).2 index child hget
        rw [Nat.zero_add] at hread
        exact (ih child (hchild hget) _).1 node hread
    · intro error herror
      cases hobject : json.isObject with
      | false =>
        obtain ⟨hbreaks, honly⟩ := breaksAt_of_isObject_eq_false base hobject
        rw [readValue_of_isObject_eq_false hobject] at herror
        cases herror
        exact ⟨[], _, by rw [List.append_nil],
          isFirstFault_here hbreaks fun other hother => .inl (honly other hother)⟩
      | true =>
        obtain ⟨members, rfl⟩ := Json.exists_members_of_isObject hobject
        rw [readValue_object] at herror
        rcases assemble_eq_error herror with htype | ⟨type, htype, hprops | ⟨props, hprops, hbelow⟩⟩
        · obtain ⟨rule, rfl, hbreaks, hfirst⟩ := breaksAt_of_readType htype
          exact ⟨[], rule, by rw [List.append_nil], isFirstFault_here hbreaks hfirst⟩
        · obtain ⟨rfl, hpresent, hnone⟩ := readProps_eq_error hprops
          refine ⟨[], .invalidProps, by rw [List.append_nil],
            isFirstFault_here (.invalidProps hpresent hnone) ?_⟩
          intro other hother
          exact .inl (eq_invalidProps_of_breaksAt htype hother).1
        · obtain ⟨index, child, hget, hread, hearlier⟩ :=
            readItems_eq_error (map_eq_error_iff.1 hbelow)
          rw [Nat.zero_add] at hread
          obtain ⟨path, rule, rfl, hfault⟩ := (ih child (hchild hget) _).2 error hread
          refine ⟨index :: path, rule, by simp [NodePath.child], ?_⟩
          apply isFirstFault_child _ hget _ hfault
          · intro rule hrule
            exact (eq_invalidProps_of_breaksAt htype hrule).2 props (readProps_eq_ok_iff.1 hprops)
          · intro j other hj hother
            obtain ⟨node, hnode⟩ := hearlier j other hj hother
            rw [Nat.zero_add] at hnode
            exact (ih other (hchild hother) _).1 node hnode

/-- Just the documents of the grammar are read. -/
theorem exists_readValue_iff (json : Json) :
    ∀ path, (∃ node, readValue path json = .ok node) ↔ Json.IsNode json := by
  induction json using Json.document_induction with
  | step json ih =>
    intro path
    constructor
    · rintro ⟨node, hnode⟩
      obtain ⟨members, nodes, rfl, htype, hne, hprops, hitems, _⟩ := readValue_eq_ok_iff.1 hnode
      refine .node htype hne ?_ (Json.isContent_iff.2 ?_)
      · rcases hprops with ⟨hmissing, _⟩ | ⟨props, hmember, _⟩
        · exact .inl hmissing
        · exact .inr ⟨props, hmember⟩
      · intro child hmem
        obtain ⟨index, hget⟩ := List.mem_iff_getElem?.1 hmem
        obtain ⟨node, _, hread⟩ := (readItems_eq_ok_iff.1 hitems).2 index child hget
        exact (ih child hmem _).1 ⟨node, hread⟩
    · intro h
      cases h with
      | @node members type htype hne hprops hchildren =>
        cases hread : readValue path (.object members) with
        | ok node => exact ⟨node, rfl⟩
        | error error =>
          rw [readValue_object] at hread
          rcases assemble_eq_error hread with hfault | ⟨_, _, hfault | ⟨_, _, hfault⟩⟩
          · rw [readType_eq_ok_iff.2 ⟨htype, hne⟩] at hfault
            cases hfault
          · obtain ⟨_, hpresent, hnone⟩ := readProps_eq_error hfault
            rcases hprops with hmissing | ⟨props, hmember⟩
            · exact absurd hmissing hpresent
            · exact absurd hmember (hnone props)
          · obtain ⟨_, child, hget, hfault, _⟩ := readItems_eq_error (map_eq_error_iff.1 hfault)
            have hmem := List.mem_of_getElem? hget
            obtain ⟨node, hnode⟩ := (ih child hmem _).2 (Json.isContent_iff.1 hchildren child hmem)
            rw [hnode] at hfault
            cases hfault

/-- Just the documents of the grammar are accepted. Any other document is
refused with the first fault that a walk through it comes across and with the
position that leads to it. That a value is no object is said of the whole
document only; of a child it is said that its parent's children are wrong, with
the position of the child. -/
theorem ofJson_outcome (json : Json) :
    ((∃ node, ofJson json = .ok node) ↔ Json.IsNode json) ∧
    (∀ error, ofJson json = .error error ↔
      ∃ path rule, error = .fault rule path ∧ IsFirstFault .root json path rule) ∧
    (∀ path, ofJson json = .error (.fault .notAnObject path) →
      path = .root ∧ json.isObject = false) ∧
    ∀ path, ofJson json = .error (.fault .invalidChildren path) →
      ∃ parent index members items item, path = NodePath.child parent index ∧
        json.documentAt? parent = some (.object members) ∧
        Fields.get? "children" members = some (.array items) ∧
        items[index]? = some item ∧ item.isObject = false := by
  obtain ⟨hok, hfirst⟩ := readValue_outcome json .root
  have herror : ∀ error, ofJson json = .error error ↔
      ∃ path rule, error = .fault rule path ∧ IsFirstFault .root json path rule := by
    intro error
    rw [ofJson_eq_readValue]
    constructor
    · exact hfirst error
    · rintro ⟨path, rule, rfl, hfault⟩
      cases hread : readValue .root json with
      | ok node => exact absurd hfault.breaks (hok node hread path rule)
      | error other =>
        obtain ⟨path', rule', rfl, hfault'⟩ := hfirst other hread
        obtain ⟨rfl, rfl⟩ := hfault.unique hfault'
        rfl
  refine ⟨?_, herror, ?_, ?_⟩
  · rw [ofJson_eq_readValue]
    exact exists_readValue_iff json .root
  · intro path hpath
    obtain ⟨_, _, heq, hfault⟩ := (herror _).1 hpath
    cases heq
    obtain ⟨value, hat, hbreaks⟩ := hfault.breaks
    cases hbreaks with
    | notAnObject hroot hvalue =>
      obtain rfl : path = .root := hroot
      cases hat
      exact ⟨rfl, hvalue⟩
  · intro path hpath
    obtain ⟨_, _, heq, hfault⟩ := (herror _).1 hpath
    cases heq
    obtain ⟨item, hat, hbreaks⟩ := hfault.breaks
    cases hbreaks with
    | invalidChildren hchild hvalue =>
      obtain ⟨parent, index, members, items, hindex, hparent, hitems, hitem⟩ :=
        exists_item_of_isObject_eq_false hchild hat hvalue
      exact ⟨parent, index, members, items, item, hindex, hparent, hitems, hitem, hvalue⟩

/-- A card whose second child has a truth value among its children and, after it, a
node without a type; the props of the card's last child are wrong as well. -/
def faultyCard : Json :=
  let nameless := Json.object []
  let middle := Json.object [("children", .array [.bool true, nameless]), ("type", .string "View")]
  let last := Json.object [("props", .bool true), ("type", .string "Text")]
  .object [("children", .array [.object [("type", .string "Text")], middle, last]),
    ("type", .string "View")]

/-- The truth value is reported, and not the missing type beside it or the props of the last
child. -/
theorem ofJson_outcome_faultyCard :
    ¬ Json.IsNode faultyCard ∧ IsFirstFault .root faultyCard [1, 0] .invalidChildren ∧
      (∃ parent index, [1, 0] = NodePath.child parent index ∧
        (faultyCard.documentAt? parent).isSome = true) ∧
      ofJson (.string "View") = .error (.fault .notAnObject .root) ∧
      (Json.string "View").isObject = false := by
  obtain ⟨hok, herror, _, hchildren⟩ := ofJson_outcome faultyCard
  have hread : ofJson faultyCard = .error (.fault .invalidChildren [1, 0]) := rfl
  have hscalar : ofJson (.string "View") = .error (.fault .notAnObject .root) := rfl
  obtain ⟨path, rule, heq, hfault⟩ := (herror _).1 hread
  cases heq
  refine ⟨?_, hfault, ?_, hscalar, ((ofJson_outcome (.string "View")).2.2.1 _ hscalar).2⟩
  · intro hnode
    obtain ⟨node, hnode⟩ := hok.2 hnode
    rw [hread] at hnode
    cases hnode
  · obtain ⟨parent, index, members, _, _, hpath, hparent, _⟩ := hchildren _ hread
    exact ⟨parent, index, hpath, by rw [hparent, Option.isSome_some]⟩

end Node

end UiTemplate
