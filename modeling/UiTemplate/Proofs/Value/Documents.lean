import UiTemplate.Proofs.Expression.Binding
import UiTemplate.Proofs.Value.Same

/-!
What a value keeps when it is written as a document and read again. Documents are
values without functions and calls, so a document goes through unchanged, while a value
comes back with null in the place of every function and every call. Nothing else about
it changes, which is said position by position: there is the same at each of them, or
null for what can be called.
-/

namespace UiTemplate.Value

mutual

/-- Nothing of a document is lost when it becomes a value. -/
theorem toJson_ofJson : (json : Json) → (ofJson json).toJson = json
  | .null => by rw [ofJson, toJson]
  | .bool b => by rw [ofJson, toJson]
  | .number n => by rw [ofJson, toJson]
  | .string s => by rw [ofJson, toJson]
  | .array items => by rw [ofJson, toJson, toJsonItems_ofJsonItems items]
  | .object members => by rw [ofJson, toJson, toJsonMembers_ofJsonMembers members]

theorem toJsonItems_ofJsonItems : (items : List Json) → toJsonItems (ofJsonItems items) = items
  | [] => rfl
  | item :: items => by
    rw [ofJsonItems, toJsonItems, toJson_ofJson item, toJsonItems_ofJsonItems items]

theorem toJsonMembers_ofJsonMembers : (members : List (String × Json)) →
    toJsonMembers (ofJsonMembers members) = members
  | [] => rfl
  | (name, value) :: members => by
    rw [ofJsonMembers, toJsonMembers, toJson_ofJson value, toJsonMembers_ofJsonMembers members]

end

theorem ofJsonItems_eq_map (items : List Json) : ofJsonItems items = items.map ofJson := by
  induction items with
  | nil => rfl
  | cons item items ih => rw [ofJsonItems, ih, List.map_cons]

theorem ofJsonMembers_eq_mapValues (members : List (String × Json)) :
    ofJsonMembers members = Fields.mapValues ofJson members := by
  induction members with
  | nil => rfl
  | cons member members ih =>
    obtain ⟨name, value⟩ := member
    rw [ofJsonMembers, ih]
    rfl

def isCallable : Value → Bool
  | .function _ | .invocation _ => true
  | _ => false

/-- The value that is read from the document of a value. -/
def restored (value : Value) : Value :=
  ofJson value.toJson

/-- What becomes of a part of a value, whatever becomes of the parts in it. -/
inductive KeptAs : Value → Value → Prop where
  | null : KeptAs .null .null
  | bool (b : Bool) : KeptAs (.bool b) (.bool b)
  | number (n : Number) : KeptAs (.number n) (.number n)
  | string (s : String) : KeptAs (.string s) (.string s)
  | array {items others : List Value} (hlength : others.length = items.length) :
    KeptAs (.array items) (.array others)
  | object {members others : List (String × Value)}
    (hnames : Fields.names others = Fields.names members) :
    KeptAs (.object members) (.object others)
  | function (callable : Callable) : KeptAs (.function callable) .null
  | invocation (call : Invocation) : KeptAs (.invocation call) .null

/-- Nothing in the value can be called, at any depth. -/
def IsData (value : Value) : Prop :=
  ∀ position part, value.partAt? position = some part → part.isCallable = false

variable {value : Value}

theorem restored_array (items : List Value) :
    restored (.array items) = .array (items.map restored) := by
  rw [restored, toJson, ofJson, toJsonItems_eq_map, ofJsonItems_eq_map, List.map_map]
  rfl

theorem restored_object (members : List (String × Value)) :
    restored (.object members) = .object (Fields.mapValues restored members) := by
  rw [restored, toJson, ofJson, toJsonMembers_eq_mapValues, ofJsonMembers_eq_mapValues,
    Fields.mapValues, Fields.mapValues, List.map_map]
  rfl

theorem keptAs_restored (value : Value) : KeptAs value value.restored := by
  cases value with
  | null => exact .null
  | bool b => exact .bool b
  | number n => exact .number n
  | string s => exact .string s
  | array items =>
    rw [restored_array]
    exact .array (List.length_map _)
  | object members =>
    rw [restored_object]
    apply KeptAs.object
    rw [Fields.names, Fields.names, Fields.mapValues, List.map_map]
    rfl
  | function callable => exact .function callable
  | invocation call => exact .invocation call

theorem parts_mapValues (f : Value → Value) (members : List (String × Value)) :
    (object (Fields.mapValues f members)).parts = (object members).parts.map f := by
  rw [parts, parts, Fields.mapValues, List.map_map, List.map_map]
  rfl

theorem parts_restored (value : Value) : value.restored.parts = value.parts.map restored := by
  cases value with
  | array items =>
    rw [restored_array]
    rfl
  | object members => rw [restored_object, parts_mapValues]
  | null | bool | number | string | function | invocation => rfl

theorem parts_canonical (value : Value) : value.canonical.parts = value.parts.map canonical := by
  cases value with
  | array items => exact canonicalItems_eq_map items
  | object members => rw [canonical, canonicalMembers_eq_mapValues, parts_mapValues]
  | null | bool | number | string | function | invocation => rfl

/-- What is done to all parts of a value alike is done to the part at each position. -/
theorem partAt?_of_parts {f : Value → Value} (h : ∀ value, (f value).parts = value.parts.map f)
    (value : Value) (position : List Nat) :
    (f value).partAt? position = (value.partAt? position).map f := by
  induction position generalizing value with
  | nil => rfl
  | cons index position ih =>
    rw [partAt?, partAt?, h, List.getElem?_map, Option.bind_map, Option.map_bind]
    exact congrArg _ (funext ih)

theorem Alike.partAt? {x y : Value} (h : Alike x y) (position : List Nat) :
    Option.Rel Alike (x.partAt? position) (y.partAt? position) := by
  rw [rel_alike_iff, ← partAt?_of_parts parts_canonical, ← partAt?_of_parts parts_canonical,
    alike_iff.1 h]

theorem sizeOf_lt_of_mem_parts {value part : Value} (h : part ∈ value.parts) :
    sizeOf part < sizeOf value := by
  cases value with
  | array items =>
    have hlt : sizeOf part < sizeOf items := List.sizeOf_lt_of_mem h
    simp only [array.sizeOf_spec]
    omega
  | object members =>
    obtain ⟨⟨name, value⟩, hmember, rfl⟩ := List.mem_map.1 h
    have hlt := List.sizeOf_lt_of_mem hmember
    simp only [Prod.mk.sizeOf_spec, object.sizeOf_spec] at hlt ⊢
    omega
  | null | bool | number | string | function | invocation => cases h

/-- What a value inherits from what is directly in it holds of every value. -/
@[elab_as_elim]
theorem part_induction {motive : Value → Prop}
    (step : ∀ value, (∀ part ∈ value.parts, motive part) → motive value) (value : Value) :
    motive value :=
  step value fun part _h => part_induction step part
termination_by sizeOf value
decreasing_by exact sizeOf_lt_of_mem_parts _h

theorem IsData.part (h : IsData value) {part : Value} (hpart : part ∈ value.parts) :
    IsData part := by
  obtain ⟨index, hindex⟩ := List.getElem?_of_mem hpart
  intro position below hbelow
  apply h (index :: position)
  rwa [Value.partAt?, hindex]

/-- A value without functions and calls comes back as it is. -/
theorem IsData.restored_eq (h : IsData value) : value.restored = value := by
  induction value using part_induction with
  | step value ih =>
  have hparts : ∀ part ∈ value.parts, part.restored = part := fun part hpart =>
    ih part hpart (h.part hpart)
  cases value with
  | array items =>
    rw [restored_array]
    exact congrArg array ((List.map_congr_left hparts).trans (List.map_id _))
  | object members =>
    rw [restored_object]
    refine congrArg object ((List.map_congr_left ?_).trans (List.map_id _))
    rintro ⟨name, value⟩ hmember
    exact congrArg (name, ·) (hparts value (List.mem_map_of_mem hmember))
  | null | bool | number | string => rfl
  | function | invocation => cases h [] _ rfl

/-- Nothing that can be called is the same as what becomes of it. -/
theorem not_alike_restored (h : value.isCallable = true) : ¬ Alike value.restored value := by
  intro hsame
  have hsame := alike_equivalence.symm hsame
  cases value with
  | function callable => cases (alike_function_iff callable _).1 hsame
  | invocation call =>
    obtain ⟨other, hother, -⟩ := (alike_invocation_iff call _).1 hsame
    cases hother
  | null | bool | number | string | array | object => cases h

/-- Only a function or a call at some depth is lost on the way through a document. -/
theorem alike_restored_iff : Alike value.restored value ↔ IsData value := by
  constructor
  · intro h position part hpart
    have hsame := h.partAt? position
    rw [partAt?_of_parts parts_restored, hpart, Option.map_some, Option.rel_some_some] at hsame
    rw [← Bool.not_eq_true]
    exact fun hcallable => not_alike_restored hcallable hsame
  · intro h
    rw [h.restored_eq]
    exact alike_equivalence.refl value

/-- A document is written as it was read. A value is the same after it is written and
read exactly if nothing in it can be called, at any depth. In any case it comes back
with the same positions, and at each of them with the same as before: equal scalars,
arrays of the same length, objects with the same names, and null for functions and
calls only. -/
theorem documents_keep_data :
    (∀ json, (ofJson json).toJson = json) ∧
    ∀ value, (Alike value.restored value ↔ IsData value) ∧
      ∀ position, Option.Rel KeptAs (value.partAt? position) (value.restored.partAt? position) := by
  refine ⟨toJson_ofJson, fun value => ⟨alike_restored_iff, ?_⟩⟩
  intro position
  rw [partAt?_of_parts parts_restored]
  cases value.partAt? position with
  | none => exact .none
  | some part => exact .some (keptAs_restored part)

/-- A button among data, with a handler and a call of it that is given the handler. -/
def buttons : Value :=
  .array [.object [("label", .string "ok"), ("press", .function ⟨1, "go"⟩)],
    .invocation (.bound ⟨1, "go"⟩ [.function ⟨1, "go"⟩]), .null]

/-- The function and the call are null afterwards, and all else is as before. -/
theorem documents_keep_data_buttons :
    buttons.partAt? [0, 1] = some (.function ⟨1, "go"⟩) ∧ ¬ Alike buttons.restored buttons ∧
      buttons.restored =
        .array [.object [("label", .string "ok"), ("press", .null)], .null, .null] ∧
      IsData (.object [("label", .string "ok")]) ∧
      Alike (restored (.object [("label", .string "ok")])) (.object [("label", .string "ok")]) := by
  obtain ⟨-, hvalues⟩ := documents_keep_data
  have hpress : buttons.partAt? [0, 1] = some (.function ⟨1, "go"⟩) := rfl
  have hdata : IsData (.object [("label", .string "ok")]) := by
    intro position part hpart
    match position, hpart with
    | [], rfl => rfl
    | [0], rfl => rfl
  refine ⟨hpress, ?_, rfl, hdata, (hvalues _).1.2 hdata⟩
  intro h
  cases (hvalues buttons).1.1 h [0, 1] _ hpress

end UiTemplate.Value
