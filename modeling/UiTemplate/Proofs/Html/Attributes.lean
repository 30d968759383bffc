import UiTemplate.Proofs.Html.Kebab
import UiTemplate.Proofs.Html.Structure

/-!
What the props of a node become in markup. A few props have a meaning in markup
and get an attribute of their own name there; of these names none begins with
`data-`. Functions and calls leave the name of their target, and every other prop
is data. All names of the last two kinds begin with `data-` and go on with the
name of the prop in lower case, so different props may get the same one.

`WrittenAs` is all that later proofs need to know of the attribute for a prop.
-/

namespace UiTemplate

/-- The name that a function or a call leaves in markup: that of its target, and
an empty one if the call does nothing. -/
def Value.actionName? : Value → Option String
  | .function callable => some callable.name
  | .invocation call => some ((call.target?.map Callable.name).getD "")
  | _ => none

theorem Value.actionName?_of_text? {value : Value} {text : String}
    (h : value.text? = some text) : value.actionName? = none := by
  cases value with
  | function callable => cases h
  | invocation call => cases h
  | null | bool | number | string | array | object => rfl

namespace Html

/-- The props that have a meaning in markup, with their attributes. -/
def ownNames : List (String × String) :=
  [("accessibilityLabel", "aria-label"), ("alt", "alt"), ("id", "id"), ("source", "src"),
    ("style", "style"), ("title", "title")]

/-- The name of the attribute for a prop that has a meaning in markup. A style
and a source have one only if they are objects, and only images have a source. -/
def ownName? (tag : String) : String × Value → Option String
  | (name, .object _) =>
    if name = "source" ∧ tag ≠ "img" then none else Fields.get? name ownNames
  | (name, _) =>
    if name = "source" ∨ name = "style" then none else Fields.get? name ownNames

/-- What the attribute for a prop can be. -/
inductive WrittenAs (tag name : String) (value : Value) (attr : Attribute) : Prop where
  | own (hown : ownName? tag (name, value) = some attr.name)
  | action (target : String) (hown : ownName? tag (name, value) = none)
    (htarget : value.actionName? = some target) (hattr : attr = actionAttribute name target)
  | data (hown : ownName? tag (name, value) = none) (hplain : value.actionName? = none)
    (hname : attr.name = "data-" ++ kebab name)

variable {tag name : String} {value : Value} {attr : Attribute} {prop : String × Value}

theorem exists_of_textAttribute? (h : textAttribute? name value = some attr) :
    ∃ text, value.text? = some text ∧ attr = ⟨name, some text⟩ := by
  obtain ⟨text, htext, rfl⟩ := Option.map_eq_some_iff.1 h
  exact ⟨text, htext, rfl⟩

/-- Something that can be called is written as a mark with the name of its target. -/
theorem dataAttribute?_of_actionName? {target : String} (h : value.actionName? = some target) :
    dataAttribute? name value = some (actionAttribute name target) := by
  cases value with
  | function callable =>
    cases h
    rfl
  | invocation call =>
    cases h
    rfl
  | null | bool | number | string | array | object => cases h

theorem name_of_dataAttribute? (hplain : value.actionName? = none)
    (h : dataAttribute? name value = some attr) : attr.name = "data-" ++ kebab name := by
  cases value with
  | function callable => cases hplain
  | invocation call => cases hplain
  | bool b =>
    cases b with
    | true =>
      cases h
      rfl
    | false => cases h
  | array items =>
    cases h
    rfl
  | object members =>
    cases h
    rfl
  | null | number | string =>
    obtain ⟨text, _, rfl⟩ := exists_of_textAttribute? h
    rfl

theorem writtenAs_of_dataAttribute? (hown : ownName? tag (name, value) = none)
    (h : dataAttribute? name value = some attr) : WrittenAs tag name value attr := by
  cases haction : value.actionName? with
  | none => exact .data hown haction (name_of_dataAttribute? haction h)
  | some target =>
    rw [dataAttribute?_of_actionName? haction] at h
    exact .action target hown haction (Option.some.inj h).symm

theorem name_of_styleAttribute? {style : List (String × Value)}
    (h : styleAttribute? style = some attr) : attr.name = "style" := by
  simp only [styleAttribute?] at h
  split at h
  · cases h
  · cases h
    rfl

theorem get?_ownNames_eq_none (hname : ¬ (name = "alt" ∨ name = "title" ∨ name = "id"))
    (hlabel : name ≠ "accessibilityLabel") (hstyle : name ≠ "style") (hsource : name ≠ "source") :
    Fields.get? name ownNames = none := by
  apply Fields.get?_eq_none_of_not_mem
  simp only [ownNames, Fields.names, List.map_cons, List.map_nil, List.mem_cons]
  grind

theorem ownName?_eq_none (hname : ¬ (name = "alt" ∨ name = "title" ∨ name = "id"))
    (hlabel : name ≠ "accessibilityLabel")
    (hobject : ∀ members, value = .object members →
      name ≠ "style" ∧ ¬ (name = "source" ∧ tag = "img")) :
    ownName? tag (name, value) = none := by
  cases value with
  | object members =>
    obtain ⟨hstyle, hsource⟩ := hobject members rfl
    rw [ownName?]
    split
    · rfl
    · next himage =>
      refine get?_ownNames_eq_none hname hlabel hstyle fun heq => himage ⟨heq, ?_⟩
      exact fun htag => hsource ⟨heq, htag⟩
  | null | bool | number | string | array | function | invocation =>
    simp only [ownName?]
    split
    · rfl
    · next hother =>
      obtain ⟨hsource, hstyle⟩ := not_or.1 hother
      exact get?_ownNames_eq_none hname hlabel hstyle hsource

/-- Each prop is written in one of the ways there are. -/
theorem writtenAs (h : propAttribute? tag (name, value) = some attr) :
    WrittenAs tag name value attr := by
  simp only [propAttribute?] at h
  split at h
  · cases h
  split at h
  · next hkey =>
    subst hkey
    obtain ⟨text, htext, rfl⟩ := exists_of_textAttribute? h
    exact .data (ownName?_eq_none (by simp) (by simp) (by simp)) (Value.actionName?_of_text? htext)
      rfl
  split at h
  · next hname =>
    obtain ⟨text, _, rfl⟩ := exists_of_textAttribute? h
    apply WrittenAs.own
    rcases hname with rfl | rfl | rfl
    all_goals cases value with
      | _ => rfl
  next hname =>
  split at h
  · next hlabel =>
    subst hlabel
    obtain ⟨text, _, rfl⟩ := exists_of_textAttribute? h
    apply WrittenAs.own
    cases value with
    | _ => rfl
  next hlabel =>
  split at h
  · next members =>
    split at h
    · next hstyle =>
      subst hstyle
      apply WrittenAs.own
      rw [name_of_styleAttribute? h]
      rfl
    next hstyle =>
    split at h
    · next hsource =>
      obtain ⟨rfl, rfl⟩ := hsource
      obtain ⟨uri, _, huri⟩ := Option.bind_eq_some_iff.1 h
      obtain ⟨text, _, rfl⟩ := exists_of_textAttribute? huri
      exact .own rfl
    next hsource =>
    exact writtenAs_of_dataAttribute? (ownName?_eq_none hname hlabel fun _ _ => ⟨hstyle, hsource⟩) h
  · next hobject =>
    exact writtenAs_of_dataAttribute?
      (ownName?_eq_none hname hlabel fun members hvalue => absurd hvalue (hobject members)) h

theorem isName_of_propAttribute? (h : propAttribute? tag (name, value) = some attr) :
    isName name = true := by
  cases hname : isName name with
  | true => rfl
  | false => simp [propAttribute?, hname] at h

theorem mem_ownNames (h : ownName? tag prop = some name) : (prop.1, name) ∈ ownNames := by
  obtain ⟨other, value⟩ := prop
  apply Fields.mem_of_get?
  cases value with
  | _ =>
    simp only [ownName?] at h
    split at h
    · cases h
    · exact h

/-- Different props with a meaning in markup have different attributes. -/
theorem eq_of_ownName? {first second : String × Value} (hfirst : ownName? tag first = some name)
    (hsecond : ownName? tag second = some name) : first.1 = second.1 := by
  have hdistinct : ∀ a ∈ ownNames, ∀ b ∈ ownNames, a.2 = b.2 → a.1 = b.1 := by decide
  exact hdistinct _ (mem_ownNames hfirst) _ (mem_ownNames hsecond) rfl

/-- The names of props that have attributes of their own stay clear of the data names. -/
theorem not_data_of_ownName? (h : ownName? tag prop = some name) :
    ¬ "data-".toList <+: name.toList := by
  have hplain : ∀ entry ∈ ownNames, ¬ "data-".toList <+: entry.2.toList := by decide
  exact hplain _ (mem_ownNames h)

theorem isName_of_ownName? (h : ownName? tag prop = some name) : isName name = true := by
  have hnames : ∀ entry ∈ ownNames, isName entry.2 = true := by decide
  exact hnames _ (mem_ownNames h)

/-- Actions are data too. -/
theorem name_actionAttribute (name target : String) :
    (actionAttribute name target).name = "data-" ++ ("action-" ++ kebab name) := by
  rw [← String.append_assoc]
  rfl

theorem data_isPrefix (name : String) : "data-".toList <+: ("data-" ++ name).toList := by
  rw [String.toList_append]
  exact List.prefix_append _ _

/-- The attribute for a prop has a proper name, so it is written. -/
theorem isName_name_of_propAttribute? (h : propAttribute? tag prop = some attr) :
    isName attr.name = true := by
  obtain ⟨name, value⟩ := prop
  have hname := isName_of_propAttribute? h
  cases writtenAs h with
  | own hown => exact isName_of_ownName? hown
  | action target hown htarget hattr =>
    rw [hattr]
    exact isName_append_kebab (by decide) hname
  | data hown hplain hattr =>
    rw [hattr]
    exact isName_append_kebab (by decide) hname

/-- The attributes that elements of a built-in type have besides those for the
props. -/
def fixedAttributes (type : String) : List Attribute :=
  if type = "Button" then [⟨"type", some "button"⟩] else []

theorem eq_of_mem_fixedAttributes {type : String} (h : attr ∈ fixedAttributes type) :
    attr = ⟨"type", some "button"⟩ := by
  unfold fixedAttributes at h
  split at h
  · simpa using h
  · cases h

/-- Props without a meaning in markup are all written behind `data-`. -/
theorem ownName?_of_not_data (h : propAttribute? tag prop = some attr)
    (hplain : ¬ "data-".toList <+: attr.name.toList) : ownName? tag prop = some attr.name := by
  obtain ⟨name, value⟩ := prop
  cases writtenAs h with
  | own hown => exact hown
  | action target _ _ hattr =>
    rw [hattr, name_actionAttribute] at hplain
    exact absurd (data_isPrefix _) hplain
  | data _ _ hname =>
    rw [hname] at hplain
    exact absurd (data_isPrefix _) hplain

/-- No prop is written as the type of a button. -/
theorem name_ne_of_propAttribute? (h : propAttribute? tag prop = some attr) :
    attr.name ≠ "type" := by
  intro htype
  have hplain : ¬ "data-".toList <+: attr.name.toList := by
    rw [htype]
    decide
  have hnames : ∀ entry ∈ ownNames, entry.2 ≠ "type" := by decide
  exact hnames _ (mem_ownNames (ownName?_of_not_data h hplain)) htype

theorem attributes_element (tag : String) (props : Props) (content : Content Element) :
    (element tag props content).attributes = props.filterMap (propAttribute? tag) := by
  cases content with
  | empty => rfl
  | leaf value => rfl
  | elements items => rfl

/-- A built-in element has its fixed attributes and then one for each prop that
is written. -/
theorem attributes_of_get? {type : String} {constructor : Constructor Element}
    (h : primitives.get? type = some constructor) (props : Props) (content : Content Element) :
    (constructor props content).attributes =
      fixedAttributes type ++ props.filterMap (propAttribute? (tagOf type)) := by
  simp only [primitives, Registry.get?_register, Registry.get?_empty] at h
  split at h
  · next htype =>
    cases h
    subst htype
    exact congrArg _ (attributes_element "button" props content)
  split at h
  · next htype =>
    cases h
    subst htype
    exact attributes_element "img" props content
  split at h
  · next htype =>
    cases h
    subst htype
    exact attributes_element "span" props content
  split at h
  · next htype =>
    cases h
    subst htype
    exact attributes_element "div" props content
  · cases h

end Html

end UiTemplate
