import Mathlib.Logic.ExistsUnique
import UiTemplate.Path
import UiTemplate.Proofs.Text.Split

/-!
How lookups go together. A path that is put together with a dot is looked up in two
stages, and every path is put together from its segments in just one way, empty
segments included. So a lookup goes one segment at a time, through objects and arrays
alike, and it is over as soon as there is nothing to go on with.
-/

namespace UiTemplate

namespace Path

/-- What a path can be put together from: one segment or more, none of them with a
dot in it. -/
structure IsSegments (segments : List String) : Prop where
  ne_nil : segments ≠ []
  not_dot : ∀ segment ∈ segments, '.' ∉ segment.toList

variable {segments : List String}

theorem isSegments_segments (path : String) : IsSegments (Path.segments path) := by
  refine ⟨segments_ne_nil path, ?_⟩
  intro segment hsegment
  obtain ⟨piece, hpiece, rfl⟩ := List.mem_map.1 hsegment
  rw [String.toList_ofList]
  exact Text.not_mem_of_mem_splitOn hpiece

theorem intercalate_segments (path : String) : ".".intercalate (Path.segments path) = path := by
  apply String.toList_injective
  have hdot : ".".toList = ['.'] := rfl
  rw [String.toList_intercalate, hdot, Path.segments, List.map_map, Text.splitOn_eq]
  have htoList : String.toList ∘ String.ofList = id := funext fun _ => String.toList_ofList
  rw [htoList, List.map_id, List.intercalate_splitOn]

/-- Segments without dots are told apart again after they are joined. -/
theorem segments_intercalate (h : IsSegments segments) :
    Path.segments (".".intercalate segments) = segments := by
  have hdot : ".".toList = ['.'] := rfl
  have hpieces : ∀ piece ∈ segments.map String.toList, '.' ∉ piece := by
    intro piece hpiece
    obtain ⟨segment, hsegment, rfl⟩ := List.mem_map.1 hpiece
    exact h.not_dot segment hsegment
  have hne : segments.map String.toList ≠ [] := by
    rw [ne_eq, List.map_eq_nil_iff]
    exact h.ne_nil
  rw [Path.segments, String.toList_intercalate, hdot, Text.splitOn_eq,
    List.splitOn_intercalate '.' hpieces hne, List.map_map]
  have hofList : String.ofList ∘ String.toList = id := funext fun _ => String.ofList_toList
  rw [hofList, List.map_id]

theorem segments_of_not_dot {segment : String} (h : '.' ∉ segment.toList) :
    Path.segments segment = [segment] := by
  rw [Path.segments, Text.splitOn_of_not_mem h, List.map_singleton, String.ofList_toList]

end Path

namespace Value

def isContainer : Value → Bool
  | .object _ | .array _ => true
  | _ => false

/-- What segments lead to, one after another: a segment names a member of an object
or counts an item of an array. -/
inductive Reaches : Value → List String → Value → Prop where
  | here (value : Value) : Reaches value [] value
  | member {members : List (String × Value)} {segment : String} {part target : Value}
    {rest : List String} (hmember : Fields.get? segment members = some part)
    (hrest : Reaches part rest target) : Reaches (.object members) (segment :: rest) target
  | item {items : List Value} {segment : String} {index : Nat} {part target : Value}
    {rest : List String} (hindex : Path.index? segment = some index)
    (hitem : items[index]? = some part) (hrest : Reaches part rest target) :
    Reaches (.array items) (segment :: rest) target

variable {value target : Value} {segments : List String}

theorem child?_of_isContainer_eq_false (h : value.isContainer = false) (segment : String) :
    value.child? segment = none := by
  cases value with
  | object members => cases h
  | array items => cases h
  | null | bool | number | string | function | invocation => rfl

theorem at?_of_isContainer_eq_false (h : value.isContainer = false) (path : String) :
    value.at? path = none := by
  rw [at?]
  cases hsegments : Path.segments path with
  | nil => exact absurd hsegments (Path.segments_ne_nil path)
  | cons segment rest => rw [lookup?, child?_of_isContainer_eq_false h, Option.bind_none]

/-- A lookup succeeds if each segment leads from one part to the next. -/
theorem lookup?_eq_some_iff : value.lookup? segments = some target ↔
    Reaches value segments target := by
  constructor
  · intro h
    induction segments generalizing value with
    | nil =>
      cases h
      exact .here _
    | cons segment rest ih =>
      obtain ⟨part, hchild, hrest⟩ := Option.bind_eq_some_iff.1 h
      cases value with
      | object members => exact .member hchild (ih hrest)
      | array items =>
        obtain ⟨index, hindex, hitem⟩ := Option.bind_eq_some_iff.1 hchild
        exact .item hindex hitem (ih hrest)
      | null | bool | number | string | function | invocation => cases hchild
  · intro h
    induction h with
    | here value => rfl
    | member hmember _ ih => rw [lookup?, child?, hmember, Option.bind_some, ih]
    | item hindex hitem _ ih =>
      rw [lookup?, child?, hindex, Option.bind_some, hitem, Option.bind_some, ih]

/-- A path can be followed segment by segment, by a lookup for each. -/
theorem lookup?_eq_foldlM (h : ∀ segment ∈ segments, '.' ∉ segment.toList) (value : Value) :
    value.lookup? segments = segments.foldlM at? value := by
  induction segments generalizing value with
  | nil => rfl
  | cons segment rest ih =>
    obtain ⟨hsegment, hrest⟩ := List.forall_mem_cons.1 h
    have hstep : value.at? segment = value.child? segment := by
      rw [at?, Path.segments_of_not_dot hsegment, lookup?]
      exact Option.bind_fun_some _
    rw [List.foldlM_cons, hstep, lookup?]
    exact congrArg _ (funext (ih hrest))

/-- What is behind a dot is looked up in what the path in front of it finds. -/
theorem at?_append (root : Value) (front back : String) :
    root.at? (front ++ "." ++ back) = (root.at? front).bind fun part => part.at? back := by
  rw [at?, Path.segments_append, lookup?_append]
  rfl

/-- A lookup goes along a path in stages: what stands before a dot first and what
stands behind it from there. Where the first stage finds nothing, or something without
parts, nothing is found. Every path is put together from segments in exactly one way,
and a lookup is that of its segments one after another, each of which names a member
of an object or counts an item of an array. -/
theorem lookups_compose (root : Value) :
    (∀ front back, root.at? (front ++ "." ++ back) =
      (root.at? front).bind fun part => part.at? back) ∧
    (∀ front back, (∀ part, root.at? front = some part → part.isContainer = false) →
      root.at? (front ++ "." ++ back) = none) ∧
    (∀ path, ∃! segments, Path.IsSegments segments ∧ path = ".".intercalate segments) ∧
    ∀ segments, Path.IsSegments segments →
      root.at? (".".intercalate segments) = segments.foldlM at? root ∧
      ∀ target, root.at? (".".intercalate segments) = some target ↔
        Reaches root segments target := by
  refine ⟨at?_append root, ?_, ?_, ?_⟩
  · intro front back h
    rw [at?_append, Option.bind_eq_none_iff]
    intro part hpart
    exact at?_of_isContainer_eq_false (h part hpart) back
  · intro path
    refine ⟨Path.segments path,
      ⟨Path.isSegments_segments path, (Path.intercalate_segments path).symm⟩, ?_⟩
    rintro segments ⟨hsegments, rfl⟩
    exact (Path.segments_intercalate hsegments).symm
  · intro segments h
    rw [at?, Path.segments_intercalate h]
    exact ⟨lookup?_eq_foldlM h.not_dot root, fun target => lookup?_eq_some_iff⟩

/-- An array in an object, with a member whose name is empty. -/
def stock : Value :=
  .object [("", .object [("", .string "unnamed")]),
    ("items", .array [.string "bolt", .object [("name", .string "nut")]])]

/-- An empty segment names a member like any other, and below a string there is nothing. -/
theorem lookups_compose_stock :
    stock.at? "items.+01.name" = some (.string "nut") ∧
      stock.at? "." = some (.string "unnamed") ∧
      stock.at? "items.0" = some (.string "bolt") ∧ stock.at? "items.0.name" = none ∧
      stock.at? "items.2.name" = none ∧ Path.IsSegments ["items", "+01", "name"] ∧
      Reaches stock ["items", "+01", "name"] (.string "nut") := by
  obtain ⟨hstages, hends, -, hsteps⟩ := lookups_compose stock
  have hitem : stock.at? "items.+01" = some (.object [("name", .string "nut")]) := rfl
  have hbolt : stock.at? "items.0" = some (.string "bolt") := rfl
  have hmissing : stock.at? "items.2" = none := rfl
  have hnut : stock.at? "items.+01.name" = some (.string "nut") := by
    rw [show "items.+01.name" = "items.+01" ++ "." ++ "name" from rfl, hstages, hitem]
    rfl
  have hsegments : Path.IsSegments ["items", "+01", "name"] := ⟨by decide, by decide⟩
  refine ⟨hnut, hstages "" "", hbolt, ?_, ?_, hsegments, ?_⟩
  · refine hends "items.0" "name" ?_
    rintro part hpart
    rw [hbolt] at hpart
    cases hpart
    rfl
  · refine hends "items.2" "name" ?_
    rintro part hpart
    rw [hmissing] at hpart
    cases hpart
  · exact ((hsteps _ hsegments).2 _).1 hnut

end Value

end UiTemplate
