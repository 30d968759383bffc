import UiTemplate.Proofs.Html.Reader

/-!
The markup of an element can be read back, and what is read is the element
itself up to what markup does not show: attributes without a proper name,
everything inside void elements, and the difference between an empty text and
none. Names of tags come from the program and have to be proper names; attribute
names, attribute values and texts may be anything at all.
-/

namespace UiTemplate.Html

namespace Element

mutual

/-- Whether every tag in an element is a name. -/
def hasNamedTags : Element → Bool
  | ⟨tag, _, _, children⟩ => isName tag && allHaveNamedTags children

def allHaveNamedTags : List Element → Bool
  | [] => true
  | element :: elements => element.hasNamedTags && allHaveNamedTags elements

end

mutual

/-- The part of an element that its markup shows. -/
def normalize : Element → Element
  | ⟨tag, attributes, text, children⟩ =>
    let attributes := attributes.filter fun attr => isName attr.name
    if voidTags.contains tag then { tag, attributes }
    else { tag, attributes, text := text.filter (· ≠ ""), children := normalizeAll children }

def normalizeAll : List Element → List Element
  | [] => []
  | element :: elements => element.normalize :: normalizeAll elements

end

end Element

namespace Reader

/-- A text that does not go on with a character of this kind. -/
def EndsRun (p : Char → Bool) (text : List Char) : Prop :=
  ∀ c ∈ text.head?, p c = false

theorem takeWhile_append_of_endsRun {p : Char → Bool} {text rest : List Char}
    (htext : ∀ c ∈ text, p c = true) (hrest : EndsRun p rest) :
    (text ++ rest).takeWhile p = text := by
  rw [List.takeWhile_append_of_pos htext]
  cases rest with
  | nil => simp
  | cons c rest =>
    have hc : p c = false := hrest c rfl
    simp [hc]

theorem dropWhile_append_of_endsRun {p : Char → Bool} {text rest : List Char}
    (htext : ∀ c ∈ text, p c = true) (hrest : EndsRun p rest) :
    (text ++ rest).dropWhile p = rest := by
  rw [List.dropWhile_append_of_pos htext]
  cases rest with
  | nil => rfl
  | cons c rest =>
    have hc : p c = false := hrest c rfl
    simp [hc]

theorem name?_append {name : String} {rest : List Char} (hname : isName name = true)
    (hrest : EndsRun isNameChar rest) : name? (name.toList ++ rest) = some (name, rest) := by
  obtain ⟨hne, hall⟩ : name.toList ≠ [] ∧ ∀ c ∈ name.toList, isNameChar c = true := by
    simpa [isName] using hname
  have htake := takeWhile_append_of_endsRun hall hrest
  have hdrop := dropWhile_append_of_endsRun hall hrest
  simp only [name?, htake, hdrop, String.ofList_toList]
  rw [if_neg (by simpa using hne)]

/-- What stands behind an attribute in a tag: another attribute or the end. -/
def EndsAttribute (text : List Char) : Prop :=
  ∃ rest, text = ' ' :: rest ∨ text = '>' :: rest

theorem EndsAttribute.endsRun {text : List Char} (h : EndsAttribute text) :
    EndsRun isNameChar text := by
  obtain ⟨rest, rfl | rfl⟩ := h
  all_goals
    intro c hc
    obtain rfl : _ = c := by simpa using hc
    decide

/-- An attribute with a proper name is read back, value and all, whatever follows it. -/
theorem attribute?_chars_append {attr : Attribute} {rest : List Char}
    (hname : isName attr.name = true) (hrest : EndsAttribute rest) :
    attribute? (attr.chars ++ rest) = some (attr, rest) := by
  obtain ⟨name, value⟩ := attr
  simp only at hname
  cases value with
  | none =>
    have hread := name?_append hname hrest.endsRun
    obtain ⟨rest', rfl | rfl⟩ := hrest
    all_goals simp [Attribute.chars, hname, attribute?, hread]
  | some value =>
    have hread : name? (name.toList ++ '=' :: '"' :: (escapeChars value.toList ++ '"' :: rest)) =
        some (name, '=' :: '"' :: (escapeChars value.toList ++ '"' :: rest)) := by
      apply name?_append hname
      intro c hc
      obtain rfl : _ = c := by simpa using hc
      decide
    have hquote : '"' ∉ escapeChars value.toList := fun h => (mem_escapeChars h).2.2.1 rfl
    simp [Attribute.chars, hname, attribute?, hread, Text.cut?_append_cons hquote,
      unescape_escapeChars]

theorem endsAttribute_flatMap_append (attrs : List Attribute) (rest : List Char) :
    EndsAttribute (attrs.flatMap Attribute.chars ++ '>' :: rest) := by
  induction attrs with
  | nil => exact ⟨rest, .inr rfl⟩
  | cons attr attrs ih =>
    rw [List.flatMap_cons, List.append_assoc]
    by_cases hname : isName attr.name = true
    · rw [Attribute.chars, if_pos hname]
      exact ⟨_, .inl rfl⟩
    · have hchars : attr.chars = [] := by simp [Attribute.chars, hname]
      rwa [hchars]

/-- All attributes of a tag are read back except those that were not written. -/
theorem attributes_flatMap_append (attrs : List Attribute) (rest : List Char) :
    attributes (attrs.flatMap Attribute.chars ++ '>' :: rest) =
      (attrs.filter fun attr => isName attr.name, '>' :: rest) := by
  induction attrs with
  | nil => exact attributes_of_attribute?_eq_none (by simp [attribute?])
  | cons attr attrs ih =>
    rw [List.flatMap_cons, List.append_assoc]
    by_cases hname : isName attr.name = true
    · have hend : EndsAttribute (attrs.flatMap Attribute.chars ++ '>' :: rest) :=
        endsAttribute_flatMap_append attrs rest
      rw [attributes_of_attribute? (attribute?_chars_append hname hend), ih]
      simp [hname]
    · have hchars : attr.chars = [] := by simp [Attribute.chars, hname]
      rw [hchars, List.nil_append, ih]
      simp [hname]

/-- A tag is read back with those of its attributes that have proper names. -/
theorem opening?_openTag_append {tag : String} (htag : isName tag = true)
    (attrs : List Attribute) (rest : List Char) :
    opening? (Element.openTag tag attrs ++ rest) =
      some (tag, attrs.filter fun attr => isName attr.name, rest) := by
  have hend : EndsAttribute (attrs.flatMap Attribute.chars ++ '>' :: rest) :=
    endsAttribute_flatMap_append attrs rest
  have hname := name?_append htag hend.endsRun
  simp [Element.openTag, opening?, hname, attributes_flatMap_append]

/-- A closing tag does not open anything. -/
theorem opening?_closeTag_append (tag : String) (rest : List Char) :
    opening? (Element.closeTag tag ++ rest) = none := by
  have hslash : isNameChar '/' = false := by decide
  simp [Element.closeTag, opening?, name?, hslash]

theorem endsRun_tag (rest : List Char) : EndsRun (· != '<') ('<' :: rest) := by
  intro c hc
  obtain rfl : '<' = c := by simpa using hc
  decide

theorem forall_ne_of_not_mem {text : List Char} (h : '<' ∉ text) :
    ∀ c ∈ text, (c != '<') = true := by
  intro c hc
  simpa using ne_of_mem_of_not_mem hc h

theorem run_append {text : List Char} (h : '<' ∉ text) (rest : List Char) :
    run (text ++ '<' :: rest) = text :=
  takeWhile_append_of_endsRun (forall_ne_of_not_mem h) (endsRun_tag rest)

theorem afterRun_append {text : List Char} (h : '<' ∉ text) (rest : List Char) :
    afterRun (text ++ '<' :: rest) = '<' :: rest :=
  dropWhile_append_of_endsRun (forall_ne_of_not_mem h) (endsRun_tag rest)

/-- A text between tags is read back, an empty one as none. -/
theorem content_textChars (text : Option String) :
    content (Element.textChars text) = text.filter (· ≠ "") := by
  cases text with
  | none => rfl
  | some text =>
    by_cases hempty : text = ""
    · subst text
      rfl
    · have hne : escapeChars text.toList ≠ [] := by
        simpa [escapeChars_eq_nil_iff] using hempty
      simp [content, Element.textChars, unescape_escapeChars, hne, Option.filter, hempty]

theorem not_mem_textChars (text : Option String) : '<' ∉ Element.textChars text := by
  cases text with
  | none => simp [Element.textChars]
  | some text => exact fun h => (mem_escapeChars h).1 rfl

/-- After the text of an element comes a tag. -/
theorem charsAll_append_closeTag (children : List Element) (tag : String) (rest : List Char) :
    ∃ tail, Element.charsAll children ++ (Element.closeTag tag ++ rest) = '<' :: tail := by
  cases children with
  | nil => exact ⟨_, rfl⟩
  | cons child children =>
    obtain ⟨childTag, attrs, text, below⟩ := child
    exact ⟨_, rfl⟩

mutual

/-- An element in front of any text is read back, and the text is left. -/
theorem element?_chars_append : (element : Element) → element.hasNamedTags = true →
    (rest : List Char) → element? (element.chars ++ rest) = some (element.normalize, rest)
  | ⟨tag, attrs, text, children⟩, hnamed, rest => by
    obtain ⟨htag, hchildren⟩ : isName tag = true ∧ Element.allHaveNamedTags children = true := by
      simpa [Element.hasNamedTags] using hnamed
    cases hvoid : voidTags.contains tag with
    | true =>
      have hopening := opening?_openTag_append htag attrs rest
      have hchars : Element.chars ⟨tag, attrs, text, children⟩ = Element.openTag tag attrs := by
        simp only [Element.chars, hvoid, if_true, List.append_nil]
      rw [hchars, element?_of_void hopening hvoid, Element.normalize]
      simp only [hvoid, if_true]
    | false =>
      obtain ⟨tail, htail⟩ := charsAll_append_closeTag children tag rest
      have hchars : Element.chars ⟨tag, attrs, text, children⟩ ++ rest =
          Element.openTag tag attrs ++ (Element.textChars text ++ '<' :: tail) := by
        rw [← htail]
        simp only [Element.chars, hvoid, Bool.false_eq_true, if_false, List.append_assoc]
      have hopening := opening?_openTag_append htag attrs (Element.textChars text ++ '<' :: tail)
      have hbelow : elements (afterRun (Element.textChars text ++ '<' :: tail)) =
          (Element.normalizeAll children, Element.closeTag tag ++ rest) := by
        rw [afterRun_append (not_mem_textChars text), ← htail]
        exact elements_charsAll_append children hchildren _ (opening?_closeTag_append tag rest)
      rw [hchars, element?_of_closed hopening hvoid hbelow, run_append (not_mem_textChars text),
        content_textChars, Element.normalize]
      simp only [hvoid, Bool.false_eq_true, if_false]

/-- Elements are read back one after the other until no tag opens. -/
theorem elements_charsAll_append : (children : List Element) →
    Element.allHaveNamedTags children = true → (rest : List Char) → opening? rest = none →
    elements (Element.charsAll children ++ rest) = (Element.normalizeAll children, rest)
  | [], _, rest, hrest => elements_of_element?_eq_none (element?_of_opening?_eq_none hrest)
  | child :: children, hnamed, rest, hrest => by
    obtain ⟨hchild, hchildren⟩ :
        child.hasNamedTags = true ∧ Element.allHaveNamedTags children = true := by
      simpa [Element.allHaveNamedTags] using hnamed
    have hfirst := element?_chars_append child hchild (Element.charsAll children ++ rest)
    rw [Element.charsAll, List.append_assoc, elements_of_element? hfirst,
      elements_charsAll_append children hchildren rest hrest, Element.normalizeAll]

end

/-- Reading an element's markup takes all of it and gives the element as markup shows it. -/
theorem read?_render {element : Element} (h : element.hasNamedTags = true) :
    read? element.render = some element.normalize := by
  have hread := element?_chars_append element h []
  rw [List.append_nil] at hread
  rw [read?, Element.render, String.toList_ofList, hread]

end Reader

/-- An element whose texts and names all try to leave their places. -/
def hostile : Element where
  tag := "div"
  attributes := [⟨"title", some "\"><script>"⟩, ⟨"x onclick", some "1"⟩, ⟨"hidden", none⟩]
  text := some "</div>&lt;"
  children := [{ tag := "img", text := some "lost" }, { tag := "p", text := some "" }]

/-- Reading the markup of an element consumes all of it and gives the element
back, as far as markup shows it; so markup has one reading. No text and no
attribute value can open, close or change a tag. -/
theorem markup_unambiguous :
    (∀ element : Element, element.hasNamedTags = true →
      Reader.read? element.render = some element.normalize) ∧
    ∀ a b : Element, a.hasNamedTags = true → b.hasNamedTags = true →
      a.render = b.render → a.normalize = b.normalize := by
  refine ⟨fun element h => Reader.read?_render h, ?_⟩
  intro a b ha hb hrender
  have hread : some a.normalize = some b.normalize := by
    rw [← Reader.read?_render ha, hrender, Reader.read?_render hb]
  exact Option.some.inj hread

/-- The attribute with a blank in its name and the text of the void element are dropped; all
else is read back. -/
theorem markup_unambiguous_hostile :
    hostile.hasNamedTags = true ∧ Reader.read? hostile.render = some hostile.normalize ∧
      hostile.normalize.hasNamedTags = true ∧ hostile.render = hostile.normalize.render ∧
      hostile.normalize = hostile.normalize.normalize := by
  have hnamed : hostile.hasNamedTags = true := by decide
  have hnormal : hostile.normalize.hasNamedTags = true := by decide
  have hrender : hostile.render = hostile.normalize.render := congrArg String.ofList (by decide)
  exact ⟨hnamed, markup_unambiguous.1 hostile hnamed, hnormal, hrender,
    markup_unambiguous.2 hostile hostile.normalize hnamed hnormal hrender⟩

end UiTemplate.Html
