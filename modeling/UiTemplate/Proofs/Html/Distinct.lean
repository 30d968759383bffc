import UiTemplate.Proofs.Html.Attributes

/-!
When the attributes of an element have different names. The props of a node have,
but their names are changed on the way: what is data is written in lower case, and
`Key` and `key` are then the same. Nothing else can make two names equal. So the
names of the attributes are different exactly if those behind `data-` are, and the
key of a node is read from its markup if no other prop is written as a key.
-/

namespace UiTemplate.Html

/-- The name behind `data-` in the attribute for a prop. A prop with a meaning in
markup has none, and neither has one without an attribute. -/
def dataName? (tag : String) (prop : String × Value) : Option String :=
  if (propAttribute? tag prop).isSome ∧ ownName? tag prop = none then
    some (if prop.2.actionName?.isSome then "action-" ++ kebab prop.1 else kebab prop.1)
  else none

variable {tag name : String} {prop first second : String × Value} {attr a b : Attribute}
  {props : Props}

theorem name_of_ownName? {own : String} (h : propAttribute? tag prop = some attr)
    (hown : ownName? tag prop = some own) : attr.name = own := by
  obtain ⟨name, value⟩ := prop
  cases writtenAs h with
  | own hsome =>
    rw [hown] at hsome
    exact (Option.some.inj hsome).symm
  | action target hnone _ _ =>
    rw [hown] at hnone
    cases hnone
  | data hnone _ _ =>
    rw [hown] at hnone
    cases hnone

/-- The name of an attribute for a prop that has no meaning in markup. -/
theorem exists_dataName? (h : propAttribute? tag prop = some attr)
    (hown : ownName? tag prop = none) :
    ∃ name, dataName? tag prop = some name ∧ attr.name = "data-" ++ name := by
  obtain ⟨name, value⟩ := prop
  cases writtenAs h with
  | own hsome =>
    rw [hown] at hsome
    cases hsome
  | action target _ htarget hattr =>
    refine ⟨"action-" ++ kebab name, by simp [dataName?, h, hown, htarget], ?_⟩
    rw [hattr, name_actionAttribute]
  | data _ hplain hname =>
    exact ⟨kebab name, by simp [dataName?, h, hown, hplain], hname⟩

/-- A prop has a data name if its attribute does. -/
theorem dataName?_eq_some_iff : dataName? tag prop = some name ↔
    ∃ attr, propAttribute? tag prop = some attr ∧ attr.name = "data-" ++ name := by
  constructor
  · intro h
    obtain ⟨hsome, hown⟩ : (propAttribute? tag prop).isSome ∧ ownName? tag prop = none := by
      apply Decidable.byContradiction
      intro hnot
      simp [dataName?, hnot] at h
    obtain ⟨attr, hattr⟩ := Option.isSome_iff_exists.1 hsome
    obtain ⟨other, hother, hname⟩ := exists_dataName? hattr hown
    rw [h, Option.some.injEq] at hother
    exact ⟨attr, hattr, by rw [hname, hother]⟩
  · rintro ⟨attr, hattr, hname⟩
    cases hown : ownName? tag prop with
    | none =>
      obtain ⟨other, hother, heq⟩ := exists_dataName? hattr hown
      rw [hname, String.append_right_inj] at heq
      rw [hother, heq]
    | some own =>
      have hprefix : "data-".toList <+: own.toList := by
        rw [← name_of_ownName? hattr hown, hname]
        exact data_isPrefix name
      exact absurd hprefix (not_data_of_ownName? hown)

/-- Two attributes of one name come from one prop or have one name behind
`data-`. -/
theorem exists_dataName?_of_name_eq (ha : propAttribute? tag first = some a)
    (hb : propAttribute? tag second = some b) (hname : a.name = b.name)
    (hne : first.1 ≠ second.1) :
    ∃ name, dataName? tag first = some name ∧ dataName? tag second = some name := by
  cases hown : ownName? tag first with
  | none =>
    obtain ⟨name, hfirst, heq⟩ := exists_dataName? ha hown
    exact ⟨name, hfirst, dataName?_eq_some_iff.2 ⟨b, hb, hname ▸ heq⟩⟩
  | some own =>
    cases hother : ownName? tag second with
    | none =>
      obtain ⟨name, hsecond, heq⟩ := exists_dataName? hb hother
      exact ⟨name, dataName?_eq_some_iff.2 ⟨a, ha, hname ▸ heq⟩, hsecond⟩
    | some other =>
      have hsame : own = other := by
        rw [← name_of_ownName? ha hown, hname, name_of_ownName? hb hother]
      exact absurd (eq_of_ownName? hown (hsame ▸ hother)) hne

/-- Two attributes of an element can share a name only if both are data attributes. -/
theorem nodup_names_iff (hprops : (Fields.names props).Nodup) :
    ((props.filterMap (propAttribute? tag)).map Attribute.name).Nodup ↔
      (props.filterMap (dataName? tag)).Nodup := by
  have hnames : props.Pairwise fun first second => first.1 ≠ second.1 := List.pairwise_map.1 hprops
  unfold List.Nodup
  rw [List.pairwise_map, List.pairwise_filterMap, List.pairwise_filterMap]
  constructor
  · intro h
    refine h.imp ?_
    intro first second hpair m hm n hn heq
    obtain ⟨a, ha, hma⟩ := dataName?_eq_some_iff.1 hm
    obtain ⟨b, hb, hnb⟩ := dataName?_eq_some_iff.1 hn
    exact hpair a ha b hb (by rw [hma, hnb, heq])
  · intro h
    refine (hnames.and h).imp ?_
    rintro first second ⟨hne, hpair⟩ a ha b hb heq
    obtain ⟨name, hfirst, hsecond⟩ := exists_dataName?_of_name_eq ha hb heq hne
    exact hpair name hfirst name hsecond rfl

theorem propAttribute?_key (tag : String) (value : Value) :
    propAttribute? tag ("key", value) = textAttribute? "data-key" value := by
  have hname : isName "key" = true := by decide
  cases value with
  | _ => simp [propAttribute?, hname, Value.isNull, textAttribute?, Value.text?]

/-- The first attribute that looks like a key is the one for the key prop, unless
another prop is written as a key. -/
theorem find?_dataKey (hprops : (Fields.names props).Nodup)
    (hkey : ∀ prop ∈ props, dataName? tag prop = some "key" → prop.1 = "key") :
    (props.filterMap (propAttribute? tag)).find? (fun attr => attr.name = "data-key") =
      (Fields.get? "key" props).bind (textAttribute? "data-key") := by
  induction props with
  | nil => rfl
  | cons prop rest ih =>
    obtain ⟨name, value⟩ := prop
    obtain ⟨hfresh, hrest⟩ : name ∉ Fields.names rest ∧ (Fields.names rest).Nodup :=
      List.nodup_cons.1 hprops
    have hothers := ih hrest fun prop hprop => hkey prop (List.mem_cons_of_mem _ hprop)
    by_cases hname : name = "key"
    · subst hname
      rw [Fields.get?, if_pos rfl, Option.bind_some]
      cases htext : textAttribute? "data-key" value with
      | some attr =>
        obtain ⟨text, _, rfl⟩ := exists_of_textAttribute? htext
        rw [List.filterMap_cons_some (by rw [propAttribute?_key, htext])]
        exact List.find?_cons_of_pos (by simp)
      | none =>
        rw [List.filterMap_cons_none (by rw [propAttribute?_key, htext]), hothers,
          Fields.get?_eq_none_of_not_mem hfresh, Option.bind_none]
    · rw [Fields.get?, if_neg hname, ← hothers]
      cases hattr : propAttribute? tag (name, value) with
      | none => rw [List.filterMap_cons_none hattr]
      | some attr =>
        have hother : attr.name ≠ "data-key" := by
          intro heq
          have hdata : dataName? tag (name, value) = some "key" :=
            dataName?_eq_some_iff.2 ⟨attr, hattr, heq.trans (by decide)⟩
          exact hname (hkey _ List.mem_cons_self hdata)
        rw [List.filterMap_cons_some hattr, List.find?_cons_of_neg (by simpa using hother)]

theorem nodup_fixedAttributes_append (type : String) :
    ((fixedAttributes type ++ props.filterMap (propAttribute? tag)).map Attribute.name).Nodup ↔
      ((props.filterMap (propAttribute? tag)).map Attribute.name).Nodup := by
  have hfresh : "type" ∉ (props.filterMap (propAttribute? tag)).map Attribute.name := by
    intro hmem
    obtain ⟨attr, hattr, hname⟩ := List.mem_map.1 hmem
    obtain ⟨prop, _, hprop⟩ := List.mem_filterMap.1 hattr
    exact name_ne_of_propAttribute? hprop hname
  unfold fixedAttributes
  split
  · rw [List.singleton_append, List.map_cons, List.nodup_cons]
    exact and_iff_right hfresh
  · rfl

theorem find?_fixedAttributes_append (type : String) (attributes : List Attribute) :
    (fixedAttributes type ++ attributes).find? (fun attr => attr.name = "data-key") =
      attributes.find? fun attr => attr.name = "data-key" := by
  unfold fixedAttributes
  split
  · exact List.find?_cons_of_neg (by simp)
  · rfl

/-- The tag in the markup of an element has the attributes of the element, if they
have proper names. -/
theorem opening?_render {element : Element} (htag : isName element.tag = true)
    (hnames : ∀ attr ∈ element.attributes, isName attr.name = true) :
    ∃ rest, Reader.opening? element.render.toList =
      some (element.tag, element.attributes, rest) := by
  obtain ⟨tag, attributes, text, children⟩ := element
  rw [Element.render, String.toList_ofList, Element.chars, Reader.opening?_openTag_append htag,
    List.filter_eq_self.2 hnames]
  exact ⟨_, rfl⟩

/-- The tag in the markup of an element of a built-in type has the attributes of the
element. -/
theorem opening?_render_of_get? {type : String} {constructor : Constructor Element}
    (hget : primitives.get? type = some constructor) (props : Props)
    (content : Content Element) :
    ∃ rest, Reader.opening? (constructor props content).render.toList =
      some (tagOf type, (constructor props content).attributes, rest) := by
  have hbuilds := builds_of_get? hget
  have hnames : ∀ attr ∈ (constructor props content).attributes, isName attr.name = true := by
    intro attr hattr
    rw [attributes_of_get? hget, List.mem_append] at hattr
    rcases hattr with hfixed | hattr
    · rw [eq_of_mem_fixedAttributes hfixed]
      decide
    · obtain ⟨prop, _, hprop⟩ := List.mem_filterMap.1 hattr
      exact isName_name_of_propAttribute? hprop
  obtain ⟨rest, hrest⟩ := opening?_render (hbuilds.tag props content ▸ hbuilds.isName) hnames
  exact ⟨rest, by rw [hrest, hbuilds.tag]⟩

/-- The attributes of an element of a built-in type have different names exactly
if no two props have the same name behind `data-`; the tag in the markup has these
attributes; and the first of them that looks like a key has the text of the key
prop, if no other prop is written as a key. -/
theorem attribute_names_distinct_iff {type : String} {constructor : Constructor Element}
    (hget : primitives.get? type = some constructor) (hprops : (Fields.names props).Nodup)
    (content : Content Element) :
    (((constructor props content).attributes.map Attribute.name).Nodup ↔
      (props.filterMap (dataName? (tagOf type))).Nodup) ∧
    (∃ rest, Reader.opening? (constructor props content).render.toList =
      some (tagOf type, (constructor props content).attributes, rest)) ∧
    ((∀ prop ∈ props, dataName? (tagOf type) prop = some "key" → prop.1 = "key") →
      (constructor props content).attributes.find? (fun attr => attr.name = "data-key") =
        ((Fields.get? "key" props).bind Value.text?).map fun text =>
          ⟨"data-key", some text⟩) := by
  have hattrs := attributes_of_get? hget props content
  refine ⟨?_, opening?_render_of_get? hget props content, ?_⟩
  · rw [hattrs, nodup_fixedAttributes_append, nodup_names_iff hprops]
  · intro hkey
    rw [hattrs, find?_fixedAttributes_append, find?_dataKey hprops hkey]
    exact Option.map_bind.symm

/-- Two titles, of which only one has a meaning in markup, a key and a function. -/
def titled : Props :=
  [("Title", .string "a"), ("key", .string "k"), ("onPress", .function ⟨1, "go"⟩),
    ("title", .string "b")]

/-- The capitalised title goes to the data attributes, out of the way of the other one. -/
theorem attribute_names_distinct_titled :
    primitives.get? "Button" = some button ∧ (Fields.names titled).Nodup ∧
      ((button titled .empty).attributes.map Attribute.name).Nodup ∧
      (∃ rest, Reader.opening? (button titled .empty).render.toList =
        some ("button", (button titled .empty).attributes, rest)) ∧
      (button titled .empty).attributes.find? (fun attr => attr.name = "data-key") =
        some ⟨"data-key", some "k"⟩ := by
  have hget : primitives.get? "Button" = some button := rfl
  have hprops : (Fields.names titled).Nodup := by decide
  have hdata : (titled.filterMap (dataName? "button")).Nodup := by decide
  have hkey : ∀ prop ∈ titled, dataName? "button" prop = some "key" → prop.1 = "key" := by
    simp only [titled, List.forall_mem_cons]
    decide
  obtain ⟨hnames, hopening, hfirst⟩ := attribute_names_distinct_iff hget hprops .empty
  exact ⟨hget, hprops, hnames.2 hdata, hopening, hfirst hkey⟩

/-- A prop called `Key` takes the place of the key: both are written as `data-key`,
and the key of the node comes second. -/
theorem attribute_names_repeated_by_case :
    (Fields.names [("Key", Value.string "x"), ("key", .string "y")]).Nodup ∧
      (element "div" [("Key", .string "x"), ("key", .string "y")] .empty).attributes =
        [⟨"data-key", some "x"⟩, ⟨"data-key", some "y"⟩] := by
  decide

end UiTemplate.Html
