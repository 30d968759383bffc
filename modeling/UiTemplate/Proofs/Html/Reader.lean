import UiTemplate.Proofs.Html.Escape

/-!
A reader for the markup of elements, written from the grammar and not from the
writer: an opening tag with its attributes, a run of text up to the next `<`,
elements, and the closing tag of the same name. Void elements end with their
opening tag. What a reading step leaves over is shorter than what it was given,
and the types of the two mutual functions say so, because nothing else makes the
recursion end.

An empty run of text is read as no text: in markup the two look the same.
-/

namespace UiTemplate.Html.Reader

/-- A name, which is never empty, and what follows it. -/
def name? (text : List Char) : Option (String × List Char) :=
  let name := text.takeWhile isNameChar
  if name.isEmpty then none else some (String.ofList name, text.dropWhile isNameChar)

theorem length_le_of_name? {text rest : List Char} {name : String}
    (h : name? text = some (name, rest)) : rest.length ≤ text.length := by
  unfold name? at h
  simp only at h
  split at h
  · cases h
  · cases h
    exact (List.dropWhile_suffix _).length_le

/-- One attribute: a blank, a name, and a value in quotes if an equals sign
follows the name at once. -/
def attribute? : List Char → Option (Attribute × List Char)
  | ' ' :: text =>
    match name? text with
    | none => none
    | some (name, '=' :: '"' :: quoted) =>
      (Text.cut? ['"'] quoted).map fun (value, rest) =>
        (⟨name, some (String.ofList (unescape value))⟩, rest)
    | some (name, rest) => some (⟨name, none⟩, rest)
  | _ => none

theorem length_lt_of_attribute? {text rest : List Char} {attr : Attribute}
    (h : attribute? text = some (attr, rest)) : rest.length < text.length := by
  unfold attribute? at h
  split at h
  · next text =>
    split at h
    · cases h
    · next name quoted hname =>
      obtain ⟨⟨value, rest'⟩, hcut, hpair⟩ := Option.map_eq_some_iff.1 h
      cases hpair
      have hlength := length_le_of_name? hname
      have hvalue := Text.length_lt_of_cut? (by decide) hcut
      simp only [List.length_cons] at hlength ⊢
      omega
    · next name rest' _ hname =>
      cases h
      have hlength := length_le_of_name? hname
      simp only [List.length_cons]
      omega
  · cases h

/-- Attributes for as long as there are any. -/
def attributes (text : List Char) : List Attribute × List Char :=
  match _h : attribute? text with
  | none => ([], text)
  | some (attr, rest) =>
    let (others, rest) := attributes rest
    (attr :: others, rest)
termination_by text.length
decreasing_by exact length_lt_of_attribute? _h

theorem length_attributes_le (text : List Char) : (attributes text).2.length ≤ text.length := by
  fun_induction attributes text with
  | case1 text _ => exact Nat.le_refl _
  | case2 text attr rest h others rest' heq ih =>
    have hlt := length_lt_of_attribute? h
    rw [heq] at ih
    simp only at ih ⊢
    omega

theorem attributes_of_attribute? {text rest : List Char} {attr : Attribute}
    (h : attribute? text = some (attr, rest)) :
    attributes text = (attr :: (attributes rest).1, (attributes rest).2) := by
  rw [attributes]
  split
  · next heq => rw [h] at heq; cases heq
  · next heq =>
    rw [h] at heq
    cases heq
    rfl

theorem attributes_of_attribute?_eq_none {text : List Char} (h : attribute? text = none) :
    attributes text = ([], text) := by
  rw [attributes]
  split
  · rfl
  · next heq => rw [h] at heq; cases heq

def opening? : List Char → Option (String × List Attribute × List Char)
  | '<' :: text =>
    match name? text with
    | none => none
    | some (tag, rest) =>
      match attributes rest with
      | (attributes, '>' :: rest) => some (tag, attributes, rest)
      | _ => none
  | _ => none

theorem length_lt_of_opening? {text rest : List Char} {tag : String}
    {attributes : List Attribute} (h : opening? text = some (tag, attributes, rest)) :
    rest.length < text.length := by
  unfold opening? at h
  split at h
  · next text =>
    split at h
    · cases h
    · next tag' inTag hname =>
      have hlength := length_le_of_name? hname
      have hattributes := length_attributes_le inTag
      split at h
      · next heq =>
        cases h
        rw [heq] at hattributes
        simp only [List.length_cons] at hattributes ⊢
        omega
      · cases h
  · cases h

def run (text : List Char) : List Char :=
  text.takeWhile (· != '<')

def afterRun (text : List Char) : List Char :=
  text.dropWhile (· != '<')

def content (run : List Char) : Option String :=
  if run.isEmpty then none else some (String.ofList (unescape run))

mutual

/-- The element at the start of a text, and what follows it. -/
def elementOf (text : List Char) :
    Option (Element × { rest : List Char // rest.length < text.length }) :=
  match hopening : opening? text with
  | none => none
  | some (tag, attributes, inner) =>
    have hinner := length_lt_of_opening? hopening
    if voidTags.contains tag then some ({ tag, attributes }, ⟨inner, hinner⟩)
    else
      have hrun : (afterRun inner).length ≤ inner.length := (List.dropWhile_suffix _).length_le
      let (children, ⟨outer, houter⟩) := elementsOf (afterRun inner)
      match hclosing : Text.after? (Element.closeTag tag) outer with
      | none => none
      | some rest =>
        some ({ tag, attributes, text := content (run inner), children }, ⟨rest, by
          have hlength := congrArg List.length (Text.after?_eq_some_iff.1 hclosing)
          simp only [List.length_append] at hlength
          omega⟩)
termination_by (text.length, 0)

/-- The elements at the start of a text for as long as there are any, and what
follows them. -/
def elementsOf (text : List Char) :
    List Element × { rest : List Char // rest.length ≤ text.length } :=
  match elementOf text with
  | none => ([], ⟨text, Nat.le_refl _⟩)
  | some (element, ⟨rest, hrest⟩) =>
    let (elements, ⟨rest', hrest'⟩) := elementsOf rest
    (element :: elements, ⟨rest', by omega⟩)
termination_by (text.length, 1)

end

def element? (text : List Char) : Option (Element × List Char) :=
  (elementOf text).map fun (element, rest) => (element, rest.val)

def elements (text : List Char) : List Element × List Char :=
  ((elementsOf text).1, (elementsOf text).2.val)

/-- The element that a text is the markup of. Nothing may be left over. -/
def read? (markup : String) : Option Element :=
  match element? markup.toList with
  | some (element, []) => some element
  | _ => none

theorem element?_of_opening?_eq_none {text : List Char} (h : opening? text = none) :
    element? text = none := by
  rw [element?, elementOf]
  split
  · rfl
  · next heq => rw [h] at heq; cases heq

/-- A void element ends with its opening tag. -/
theorem element?_of_void {text inner : List Char} {tag : String} {attributes : List Attribute}
    (h : opening? text = some (tag, attributes, inner)) (hvoid : voidTags.contains tag = true) :
    element? text = some ({ tag, attributes }, inner) := by
  rw [element?, elementOf]
  split
  · next heq => rw [h] at heq; cases heq
  · next heq =>
    rw [h] at heq
    cases heq
    rw [if_pos hvoid]
    rfl

/-- Any other element goes on until its closing tag. -/
theorem element?_of_closed {text inner rest : List Char} {tag : String}
    {attributes : List Attribute} {children : List Element}
    (h : opening? text = some (tag, attributes, inner)) (hvoid : voidTags.contains tag = false)
    (hchildren : elements (afterRun inner) = (children, Element.closeTag tag ++ rest)) :
    element? text = some ({ tag, attributes, text := content (run inner), children }, rest) := by
  obtain ⟨hfst, hsnd⟩ := Prod.mk.inj hchildren
  rw [element?, elementOf]
  split
  · next heq => rw [h] at heq; cases heq
  · next heq =>
    rw [h] at heq
    cases heq
    simp only [hvoid, Bool.false_eq_true, if_false]
    split
    · next hclosing =>
      rw [hsnd, Text.after?_append] at hclosing
      cases hclosing
    · next hclosing =>
      rw [hsnd, Text.after?_append] at hclosing
      cases hclosing
      simp [hfst]

/-- Reading goes on after every element. -/
theorem elements_of_element? {text rest : List Char} {element : Element}
    (h : element? text = some (element, rest)) :
    elements text = (element :: (elements rest).1, (elements rest).2) := by
  obtain ⟨⟨element', rest', hlt⟩, helement, hpair⟩ := Option.map_eq_some_iff.1 h
  cases hpair
  rw [elements, elementsOf, helement]
  rfl

theorem elements_of_element?_eq_none {text : List Char} (h : element? text = none) :
    elements text = ([], text) := by
  have helement : elementOf text = none := Option.map_eq_none_iff.1 h
  rw [elements, elementsOf, helement]

end UiTemplate.Html.Reader
