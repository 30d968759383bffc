import UiTemplate.Proofs.Expression.References

/-!
What filling a document does at each position. Arrays and objects keep their shape,
whatever else is not a string stays as it is, and in the place of a string stands what
it evaluates to; nothing goes into that value again, whatever it looks like. This is
all there is to say: it leaves only one value that a document can be filled to. A
document in which no string refers to anything is read back unchanged.
-/

namespace UiTemplate

namespace Json

/-- What is directly in a document: the items of an array, or what the members of an
object hold. -/
def parts : Json → List Json
  | .array items => items
  | .object members => members.map Prod.snd
  | _ => []

/-- The part of a document at a position, which counts off the parts on the way. -/
def partAt? (json : Json) : List Nat → Option Json
  | [] => some json
  | index :: position => json.parts[index]?.bind fun part => part.partAt? position

theorem sizeOf_lt_of_mem_parts {json part : Json} (h : part ∈ json.parts) :
    sizeOf part < sizeOf json := by
  cases json with
  | array items =>
    have hlt : sizeOf part < sizeOf items := List.sizeOf_lt_of_mem h
    simp only [array.sizeOf_spec]
    omega
  | object members =>
    obtain ⟨⟨name, value⟩, hmember, rfl⟩ := List.mem_map.1 h
    have hlt := List.sizeOf_lt_of_mem hmember
    simp only [Prod.mk.sizeOf_spec, object.sizeOf_spec] at hlt ⊢
    omega
  | null | bool | number | string => cases h

/-- What a document inherits from what is directly in it holds of every document. -/
@[elab_as_elim]
theorem part_induction {motive : Json → Prop}
    (step : ∀ json, (∀ part ∈ json.parts, motive part) → motive json) (json : Json) :
    motive json :=
  step json fun part _h => part_induction step part
termination_by sizeOf json
decreasing_by exact sizeOf_lt_of_mem_parts _h

end Json

namespace Value

/-- What is directly in a value. Functions and calls have nothing in them. -/
def parts : Value → List Value
  | .array items => items
  | .object members => members.map Prod.snd
  | _ => []

def partAt? (value : Value) : List Nat → Option Value
  | [] => some value
  | index :: position => value.parts[index]?.bind fun part => part.partAt? position

theorem toJsonItems_eq_map (items : List Value) : toJsonItems items = items.map toJson := by
  induction items with
  | nil => rfl
  | cons item items ih => rw [toJsonItems, ih, List.map_cons]

theorem toJsonMembers_eq_mapValues (members : List (String × Value)) :
    toJsonMembers members = Fields.mapValues toJson members := by
  induction members with
  | nil => rfl
  | cons member members ih =>
    obtain ⟨name, value⟩ := member
    rw [toJsonMembers, ih]
    rfl

end Value

theorem Fields.eq_of_names_of_values {α : Type} {xs ys : Fields α}
    (hnames : names xs = names ys) (hvalues : xs.map Prod.snd = ys.map Prod.snd) : xs = ys := by
  have hzip : ∀ fields : Fields α, (names fields).zip (fields.map Prod.snd) = fields := by
    intro fields
    rw [names, List.zip_map']
    exact List.map_id fields
  rw [← hzip xs, ← hzip ys, hnames, hvalues]

/-- What stands in a filled document in the place of a part of it. -/
inductive FilledTo (context : Context) : Json → Value → Prop where
  | null : FilledTo context .null .null
  | bool (b : Bool) : FilledTo context (.bool b) (.bool b)
  | number (n : Number) : FilledTo context (.number n) (.number n)
  | string (s : String) : FilledTo context (.string s) (evaluate context s)
  | array {items : List Json} {values : List Value} (hlength : values.length = items.length) :
    FilledTo context (.array items) (.array values)
  | object {members : List (String × Json)} {filled : List (String × Value)}
    (hnames : Fields.names filled = Fields.names members) :
    FilledTo context (.object members) (.object filled)

/-- A string that refers to nothing. -/
structure IsPlain (raw : String) : Prop where
  not_property : ¬ propertyMarker <+: raw.toList
  not_function : ¬ functionMarker <+: raw.toList
  not_placeholder : ¬ TextPart.HasPlaceholder raw.toList

/-- At every position of the document, what stands there in the value is what the
document is to be filled to. -/
def IsFilled (context : Context) (json : Json) (value : Value) : Prop :=
  ∀ position part, json.partAt? position = some part →
    ∃ found, value.partAt? position = some found ∧ FilledTo context part found

variable {context : Context} {json part : Json} {value found : Value} {position : List Nat}
  {raw : String}

theorem evaluate_property (context : Context) (path : String) :
    evaluate context ("prop::" ++ path) = context.property path := by
  have hmarker : "prop::".toList = propertyMarker := rfl
  rw [evaluate, String.toList_append, hmarker, Expression.parse_property, Expression.eval,
    String.ofList_toList]

/-- A string without markers and placeholders stands for itself. -/
theorem evaluate_of_isPlain (h : IsPlain raw) : evaluate context raw = .string raw := by
  rw [evaluate, Expression.parse, Text.after?_eq_none_iff.2 h.not_property,
    Text.after?_eq_none_iff.2 h.not_function]
  have hsame := interpolate_of_not_hasPlaceholder context h.not_placeholder
  rw [interpolate] at hsame
  simp only [Expression.eval, hsame, String.ofList_toList]

/-- Binding fills in a document at its top. -/
theorem filledTo_bindValue (context : Context) (json : Json) :
    FilledTo context json (bindValue context json) := by
  cases json with
  | null => exact .null
  | bool b => exact .bool b
  | number n => exact .number n
  | string s => exact .string s
  | array items =>
    rw [bindValue, bindItems_eq_map]
    exact .array (List.length_map _)
  | object members => exact .object (names_bindProps context (some members))

theorem parts_bindValue_object (context : Context) (members : List (String × Json)) :
    (bindMembers context members).map Prod.snd =
      (members.map Prod.snd).map (bindValue context) := by
  rw [bindMembers_eq_mapValues, Fields.mapValues, List.map_map, List.map_map]
  rfl

theorem parts_bindValue (hpart : json.parts ≠ []) :
    (bindValue context json).parts = json.parts.map (bindValue context) := by
  cases json with
  | array items => exact bindItems_eq_map context items
  | object members => exact parts_bindValue_object context members
  | null | bool | number | string => exact absurd rfl hpart

/-- Binding keeps every part of a document in its position. -/
theorem partAt?_bindValue (h : json.partAt? position = some part) :
    (bindValue context json).partAt? position = some (bindValue context part) := by
  induction position generalizing json with
  | nil =>
    cases h
    rfl
  | cons index position ih =>
    obtain ⟨inside, hinside, hrest⟩ := Option.bind_eq_some_iff.1 h
    have hparts : json.parts ≠ [] := List.ne_nil_of_mem (List.mem_of_getElem? hinside)
    rw [Value.partAt?, parts_bindValue hparts, List.getElem?_map, hinside]
    exact ih hrest

/-- What is filled is filled in each of its parts. -/
theorem IsFilled.inside {index : Nat} (h : IsFilled context json value)
    (hpart : json.parts[index]? = some part) :
    ∃ inside, value.parts[index]? = some inside ∧ IsFilled context part inside := by
  obtain ⟨inside, hinside, -⟩ := h [index] part (by rw [Json.partAt?, hpart]; rfl)
  have hvalue : value.parts[index]? = some inside := by
    obtain ⟨found, hfound, heq⟩ := Option.bind_eq_some_iff.1 hinside
    cases heq
    exact hfound
  refine ⟨inside, hvalue, ?_⟩
  intro position below hbelow
  obtain ⟨found, hfound, hfilled⟩ := h (index :: position) below (by rwa [Json.partAt?, hpart])
  rw [Value.partAt?, hvalue] at hfound
  exact ⟨found, hfound, hfilled⟩

theorem IsFilled.parts_eq (h : IsFilled context json value)
    (hlength : value.parts.length = json.parts.length)
    (hparts : ∀ part ∈ json.parts, ∀ inside, IsFilled context part inside →
      inside = bindValue context part) :
    value.parts = json.parts.map (bindValue context) := by
  apply List.ext_getElem?
  intro index
  rw [List.getElem?_map]
  cases hpart : json.parts[index]? with
  | some part =>
    obtain ⟨inside, hinside, hfilled⟩ := h.inside hpart
    rw [hinside, hparts part (List.mem_of_getElem? hpart) inside hfilled, Option.map_some]
  | none =>
    rw [List.getElem?_eq_none_iff] at hpart
    rw [List.getElem?_eq_none (hlength ▸ hpart), Option.map_none]

/-- What stands at each position leaves only one value. -/
theorem IsFilled.eq (h : IsFilled context json value) : value = bindValue context json := by
  induction json using Json.part_induction generalizing value with
  | step json ih =>
  have hparts : ∀ part ∈ json.parts, ∀ inside, IsFilled context part inside →
      inside = bindValue context part := fun part hpart inside => ih part hpart
  obtain ⟨found, hfound, hfilled⟩ := h [] json rfl
  cases hfound
  cases hfilled with
  | null => rfl
  | bool b => rfl
  | number n => rfl
  | string s => rfl
  | array hlength =>
    have hvalues := h.parts_eq hlength hparts
    rw [bindValue, bindItems_eq_map]
    exact congrArg Value.array hvalues
  | object hnames =>
    have hlength := congrArg List.length hnames
    simp only [Fields.names, List.length_map] at hlength
    have hvalues := h.parts_eq (by simpa [Value.parts, Json.parts] using hlength) hparts
    rw [bindValue]
    apply congrArg Value.object
    apply Fields.eq_of_names_of_values
    · exact hnames.trans (names_bindProps context (some _)).symm
    · exact hvalues.trans (parts_bindValue_object context _).symm

/-- Only the bound document is filled in at every position. -/
theorem isFilled_iff : IsFilled context json value ↔ value = bindValue context json := by
  constructor
  · exact IsFilled.eq
  · rintro rfl position part hpart
    exact ⟨bindValue context part, partAt?_bindValue hpart, filledTo_bindValue context part⟩

/-- Documents that refer to nothing are the same before and after. -/
theorem toJson_bindValue (h : ∀ position raw, json.partAt? position = some (.string raw) →
    IsPlain raw) : (bindValue context json).toJson = json := by
  induction json using Json.part_induction with
  | step json ih =>
  have hparts : ∀ part ∈ json.parts, (bindValue context part).toJson = part := by
    intro part hpart
    obtain ⟨index, hindex⟩ := List.getElem?_of_mem hpart
    refine ih part hpart fun position raw hraw => h (index :: position) raw ?_
    rwa [Json.partAt?, hindex]
  cases json with
  | null => rfl
  | bool b => rfl
  | number n => rfl
  | string raw =>
    rw [bindValue, evaluate_of_isPlain (h [] raw rfl)]
    rfl
  | array items =>
    rw [bindValue, Value.toJson, bindItems_eq_map, Value.toJsonItems_eq_map, List.map_map]
    exact congrArg Json.array ((List.map_congr_left hparts).trans (List.map_id _))
  | object members =>
    rw [bindValue, Value.toJson, bindMembers_eq_mapValues, Value.toJsonMembers_eq_mapValues,
      Fields.mapValues, Fields.mapValues, List.map_map]
    refine congrArg Json.object ((List.map_congr_left ?_).trans (List.map_id _))
    rintro ⟨name, value⟩ hmember
    exact congrArg (name, ·) (hparts value (List.mem_map_of_mem hmember))

/-- A value is what a document is filled to exactly if at each position there stands
what the document is to be filled to there: the same where nothing can be evaluated,
the value of a string in the place of the string, and an array or an object of the
same shape. What a string refers to is put in as it is. A document that refers to
nothing is read back unchanged, and props are filled one by one. -/
theorem bindValue_pointwise (context : Context) (json : Json) :
    (∀ value, IsFilled context json value ↔ value = bindValue context json) ∧
    (∀ position path, json.partAt? position = some (.string ("prop::" ++ path)) →
      (bindValue context json).partAt? position = some ((context.get? path).getD .null)) ∧
    ((∀ position raw, json.partAt? position = some (.string raw) → IsPlain raw) →
      (bindValue context json).toJson = json) ∧
    ∀ props, Fields.names (bindProps context props) = Fields.names (props.getD []) ∧
      ∀ name, Fields.get? name (bindProps context props) =
        (Fields.get? name (props.getD [])).map (bindValue context) := by
  refine ⟨fun value => isFilled_iff, ?_, toJson_bindValue, ?_⟩
  · intro position path hpart
    rw [partAt?_bindValue hpart, bindValue, evaluate_property]
    rfl
  · intro props
    refine ⟨names_bindProps context props, ?_⟩
    intro name
    cases props with
    | none => rfl
    | some members =>
      rw [bindProps, bindMembers_eq_mapValues]
      exact Fields.get?_mapValues (bindValue context) name members

/-- A greeting that looks like a reference. -/
def echo : Context :=
  ⟨[("greeting", .string "prop::name"), ("name", .string "Ann")]⟩

/-- A document that refers to the greeting. -/
def greetingItems : Json :=
  .object [("items", .array [.string "prop::greeting", .bool true])]

/-- A document that only nearly refers to something. -/
def plainItems : Json :=
  .array [.string "prop:name"]

/-- The greeting is put in as it is, though it looks like another reference. -/
theorem bindValue_pointwise_echo :
    greetingItems.partAt? [0, 0] = some (.string ("prop::" ++ "greeting")) ∧
      (bindValue echo greetingItems).partAt? [0, 0] = some (.string "prop::name") ∧
      IsFilled echo greetingItems (bindValue echo greetingItems) ∧
      (∀ position raw, plainItems.partAt? position = some (.string raw) → IsPlain raw) ∧
      (bindValue echo plainItems).toJson = plainItems := by
  have hplain : IsPlain "prop:name" :=
    ⟨by decide, by decide, TextPart.first?_eq_none_iff.1 rfl⟩
  have hstrings : ∀ position raw, plainItems.partAt? position = some (.string raw) →
      IsPlain raw := by
    intro position raw hraw
    match position, hraw with
    | [0], rfl => exact hplain
  obtain ⟨hfilled, hproperty, -, -⟩ := bindValue_pointwise echo greetingItems
  obtain ⟨-, -, hsame, -⟩ := bindValue_pointwise echo plainItems
  exact ⟨rfl, hproperty [0, 0] "greeting" rfl, (hfilled _).2 rfl, hstrings, hsame hstrings⟩

end UiTemplate
