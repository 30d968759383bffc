import UiTemplate.Value

/-!
Paths into values. A path is written as segments between dots; a segment names
a member of an object or counts an item of an array. Looking up follows both
kinds of container. Putting a value somewhere follows objects only: whatever
else stands on the way, an array included, gives way to a new object.
-/

namespace UiTemplate

namespace Path

/-- The segments of a written path. There is at least one, and segments may be
empty. -/
def segments (path : String) : List String :=
  (Text.splitOn '.' path.toList).map String.ofList

/-- The digits read so far and one more, as long as the number fits a 64-bit
word. -/
def indexDigit? (n : Nat) (c : Char) : Option Nat :=
  if c.isDigit then
    let next := n * 10 + (c.toNat - '0'.toNat)
    if next < UInt64.size then some next else none
  else none

/-- The position that a segment counts in an array: decimal digits, after a
plus sign if wanted. -/
def index? (segment : String) : Option Nat :=
  let digits :=
    match segment.toList with
    | '+' :: rest => rest
    | text => text
  if digits.isEmpty then none else digits.foldlM indexDigit? 0

end Path

namespace Value

def child? (value : Value) (segment : String) : Option Value :=
  match value with
  | .object members => Fields.get? segment members
  | .array items => (Path.index? segment).bind fun i => items[i]?
  | _ => none

def lookup? (value : Value) : List String → Option Value
  | [] => some value
  | segment :: rest => (value.child? segment).bind fun part => part.lookup? rest

def at? (value : Value) (path : String) : Option Value :=
  value.lookup? (Path.segments path)

/-- An old value, or nothing, with `new` put at the end of the segments. Every
segment before the last leads through an object, which is created if there is
none. -/
def put (new : Value) : List String → (old : Option Value) → Value
  | [], _ => new
  | segment :: rest, old =>
    let members := (old.map Value.members).getD []
    .object (Fields.insert segment (new.put rest (Fields.get? segment members)) members)

theorem lookup?_append (value : Value) (front back : List String) :
    value.lookup? (front ++ back) =
      (value.lookup? front).bind fun part => part.lookup? back := by
  induction front generalizing value with
  | nil => rfl
  | cons segment front ih =>
    simp only [List.cons_append, lookup?]
    cases value.child? segment with
    | none => rfl
    | some part => exact ih part

end Value

theorem Path.segments_append (left right : String) :
    segments (left ++ "." ++ right) = segments left ++ segments right := by
  simp [segments, Text.splitOn_append]

theorem Path.segments_ne_nil (path : String) : segments path ≠ [] := by
  rw [segments, ne_eq, List.map_eq_nil_iff]
  exact Text.splitOn_ne_nil _ _

end UiTemplate
