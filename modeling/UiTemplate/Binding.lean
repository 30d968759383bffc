import UiTemplate.Expression

/-!
Filling documents from a context. Every string is evaluated where it stands;
names, numbers and the shape of arrays and objects stay as they are.
-/

namespace UiTemplate

mutual

/-- A document with every string in it evaluated. -/
def bindValue (context : Context) : Json → Value
  | .null => .null
  | .bool b => .bool b
  | .number n => .number n
  | .string s => evaluate context s
  | .array items => .array (bindItems context items)
  | .object members => .object (bindMembers context members)

def bindItems (context : Context) : List Json → List Value
  | [] => []
  | item :: items => bindValue context item :: bindItems context items

def bindMembers (context : Context) : List (String × Json) → List (String × Value)
  | [] => []
  | (name, value) :: members => (name, bindValue context value) :: bindMembers context members

end

/-- The props of a node, evaluated. A node without props has none. -/
def bindProps (context : Context) (props : Option (List (String × Json))) :
    List (String × Value) :=
  match props with
  | none => []
  | some members => bindMembers context members

/-- The content of a node without child nodes. Only its placeholders are
filled: a leaf cannot refer to properties or functions. -/
def bindLeaf (context : Context) : Json → Value
  | .string s => .string (String.ofList (interpolate context s.toList))
  | leaf => .ofJson leaf

theorem bindItems_eq_map (context : Context) (items : List Json) :
    bindItems context items = items.map (bindValue context) := by
  induction items with
  | nil => rfl
  | cons item items ih => simp [bindItems, ih]

theorem bindMembers_eq_mapValues (context : Context) (members : List (String × Json)) :
    bindMembers context members = Fields.mapValues (bindValue context) members := by
  induction members with
  | nil => rfl
  | cons member members ih =>
    obtain ⟨name, value⟩ := member
    simp [bindMembers, ih, Fields.mapValues]

/-- Names are not evaluated. -/
theorem names_bindProps (context : Context) (props : Option (List (String × Json))) :
    Fields.names (bindProps context props) = Fields.names (props.getD []) := by
  cases props with
  | none => rfl
  | some members =>
    rw [bindProps, bindMembers_eq_mapValues, Fields.names, Fields.mapValues, List.map_map]
    rfl

end UiTemplate
