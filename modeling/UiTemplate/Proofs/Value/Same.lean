import Mathlib.Data.List.Forall2
import UiTemplate.Path
import UiTemplate.Proofs.Fields.Order

/-!
When values are the same. There is only one way for two different values to be the
same: somewhere in them a zero has different signs. So every value has one among its
likes that stands for all of them, the one in which no zero is negative, and values
are the same exactly if these are equal. That sameness is an equivalence, that it
goes by what an object has under each name, and that lookups cannot tell values apart
that are the same: all this follows from that.
-/

namespace UiTemplate

/-- The number without the sign of a zero. -/
def Binary64.canonical (x : Binary64) : Binary64 :=
  if x.rank = 0 then zero false else x

theorem Binary64.same_iff_canonical (x y : Binary64) :
    x.same y = true ↔ x.canonical = y.canonical := by
  obtain ⟨negative, rank, hrank⟩ := x
  obtain ⟨negative', rank', hrank'⟩ := y
  rw [same_iff, canonical, canonical]
  grind [zero]

/-- The number without the sign of a zero. -/
def Number.canonical : Number → Number
  | .whole n => .whole n
  | .real x => .real x.canonical

theorem Number.same_iff (m n : Number) : m.same n = true ↔ m.canonical = n.canonical := by
  cases m with
  | whole m =>
    cases n with
    | whole n => simp [same, canonical]
    | real y => simp [same, canonical]
  | real x =>
    cases n with
    | whole n => simp [same, canonical]
    | real y => simp [same, canonical, Binary64.same_iff_canonical]

mutual

/-- The value without negative zeros, which stands for all that are the same. -/
def Value.canonical : Value → Value
  | .number n => .number n.canonical
  | .array items => .array (canonicalItems items)
  | .object members => .object (canonicalMembers members)
  | .invocation call => .invocation call.canonical
  | value => value

def Invocation.canonical : Invocation → Invocation
  | .bound target arguments => .bound target (canonicalItems arguments)
  | call => call

def canonicalItems : List Value → List Value
  | [] => []
  | item :: items => item.canonical :: canonicalItems items

def canonicalMembers : List (String × Value) → List (String × Value)
  | [] => []
  | (name, value) :: members => (name, value.canonical) :: canonicalMembers members

end

mutual

/-- Two values are the same if their canonical forms, with zeros that have no sign, are
equal. -/
theorem Value.same_iff : (x y : Value) → (x.same y = true ↔ x.canonical = y.canonical)
  | .null, y => by cases y <;> simp [Value.same, Value.canonical]
  | .bool b, y => by cases y <;> simp [Value.same, Value.canonical]
  | .number n, y => by cases y <;> simp [Value.same, Value.canonical, Number.same_iff]
  | .string s, y => by cases y <;> simp [Value.same, Value.canonical]
  | .array items, y => by cases y <;> simp [Value.same, Value.canonical, sameValues_iff items]
  | .object members, y => by cases y <;> simp [Value.same, Value.canonical, sameFields_iff members]
  | .function callable, y => by cases y <;> simp [Value.same, Value.canonical]
  | .invocation call, y => by
    cases y <;> simp [Value.same, Value.canonical, Invocation.same_iff call]

theorem Invocation.same_iff : (a b : Invocation) → (a.same b = true ↔ a.canonical = b.canonical)
  | .noop, b => by cases b <;> simp [Invocation.same, Invocation.canonical]
  | .forward target, b => by cases b <;> simp [Invocation.same, Invocation.canonical]
  | .bound target arguments, b => by
    cases b <;> simp [Invocation.same, Invocation.canonical, sameValues_iff arguments]

theorem sameValues_iff : (xs ys : List Value) →
    (sameValues xs ys = true ↔ canonicalItems xs = canonicalItems ys)
  | [], ys => by cases ys <;> simp [sameValues, canonicalItems]
  | x :: xs, ys => by
    cases ys <;> simp [sameValues, canonicalItems, Value.same_iff x, sameValues_iff xs]

theorem sameFields_iff : (xs ys : List (String × Value)) →
    (sameFields xs ys = true ↔ canonicalMembers xs = canonicalMembers ys)
  | [], ys => by cases ys <;> simp [sameFields, canonicalMembers]
  | member :: members, [] => by simp [sameFields, canonicalMembers]
  | (name, x) :: xs, (other, y) :: ys => by
    simp [sameFields, canonicalMembers, Value.same_iff x y, sameFields_iff xs ys, and_assoc]

end

theorem canonicalItems_eq_map (items : List Value) :
    canonicalItems items = items.map Value.canonical := by
  induction items with
  | nil => rfl
  | cons item items ih => rw [canonicalItems, ih, List.map_cons]

theorem canonicalMembers_eq_mapValues (members : List (String × Value)) :
    canonicalMembers members = Fields.mapValues Value.canonical members := by
  induction members with
  | nil => rfl
  | cons member members ih =>
    obtain ⟨name, value⟩ := member
    rw [canonicalMembers, ih]
    rfl

namespace Value

/-- Two values are the same. -/
def Alike (x y : Value) : Prop :=
  x.same y = true

variable {x y : Value} {xs ys : List Value} {members others : List (String × Value)}

theorem alike_iff : Alike x y ↔ x.canonical = y.canonical :=
  same_iff x y

theorem alike_equivalence : Equivalence Alike where
  refl _ := alike_iff.2 rfl
  symm h := alike_iff.2 (alike_iff.1 h).symm
  trans h₁ h₂ := alike_iff.2 ((alike_iff.1 h₁).trans (alike_iff.1 h₂))

theorem forall₂_alike_iff :
    List.Forall₂ Alike xs ys ↔ xs.map canonical = ys.map canonical := by
  have hlike : Alike = fun x y => x.canonical = y.canonical :=
    funext₂ fun _ _ => propext alike_iff
  rw [← List.forall₂_eq_eq_eq, List.forall₂_map_left_iff, List.forall₂_map_right_iff, hlike]

theorem rel_alike_iff {a b : Option Value} :
    Option.Rel Alike a b ↔ a.map canonical = b.map canonical := by
  cases a with
  | none => cases b <;> simp
  | some x => cases b <;> simp [alike_iff]

theorem alike_object_iff :
    Alike (.object members) (.object others) ↔
      Fields.mapValues canonical members = Fields.mapValues canonical others := by
  rw [alike_iff, canonical, canonical, canonicalMembers_eq_mapValues,
    canonicalMembers_eq_mapValues, object.injEq]

/-- Objects are the same if they have the same under each name. Only for this do the
members have to be in order. -/
theorem alike_object_iff_of_sorted (hmembers : Fields.Sorted members)
    (hothers : Fields.Sorted others) :
    Alike (.object members) (.object others) ↔
      ∀ name, Option.Rel Alike (Fields.get? name members) (Fields.get? name others) := by
  simp only [alike_object_iff, rel_alike_iff, ← Fields.get?_mapValues]
  constructor
  · intro h name
    rw [h]
  · exact (hmembers.mapValues canonical).ext (hothers.mapValues canonical)

/-- Objects answer all lookups alike if they have the same names and under each of them the
same. -/
theorem forall_rel_get?_iff :
    (∀ name, Option.Rel Alike (Fields.get? name members) (Fields.get? name others)) ↔
      (∀ name, name ∈ Fields.names members ↔ name ∈ Fields.names others) ∧
      ∀ name x y, Fields.get? name members = some x → Fields.get? name others = some y →
        Alike x y := by
  simp only [Fields.mem_names_iff, ← forall_and]
  refine forall_congr' fun name => ?_
  cases Fields.get? name members with
  | none => cases Fields.get? name others <;> simp
  | some x => cases Fields.get? name others <;> simp

theorem child?_canonical (value : Value) (segment : String) :
    value.canonical.child? segment = (value.child? segment).map canonical := by
  cases value with
  | array items =>
    rw [canonical, canonicalItems_eq_map, child?, child?, Option.map_bind]
    exact congrArg _ (funext fun index => List.getElem?_map)
  | object members =>
    rw [canonical, canonicalMembers_eq_mapValues]
    exact Fields.get?_mapValues canonical segment members
  | null | bool | number | string | function | invocation => rfl

/-- Lookups go to the same part of a value and of its canonical form. -/
theorem lookup?_canonical (value : Value) (segments : List String) :
    value.canonical.lookup? segments = (value.lookup? segments).map canonical := by
  induction segments generalizing value with
  | nil => rfl
  | cons segment rest ih =>
    rw [lookup?, lookup?, child?_canonical, Option.map_bind, Option.bind_map]
    exact congrArg _ (funext fun part => ih part)

/-- Lookups in values that are the same find the same, or nothing in either. -/
theorem Alike.at? (h : Alike x y) (path : String) : Option.Rel Alike (x.at? path) (y.at? path) := by
  rw [rel_alike_iff, Value.at?, Value.at?, ← lookup?_canonical, ← lookup?_canonical, alike_iff.1 h]

/-- A function is the same as itself only. -/
theorem alike_function_iff (callable : Callable) (value : Value) :
    Alike (.function callable) value ↔ value = .function callable := by
  rw [alike_iff]
  cases value with
  | function other => simp [canonical, eq_comm]
  | null | bool | number | string | array | object | invocation => simp [canonical]

theorem canonical_invocation_iff (call other : Invocation) :
    call.canonical = other.canonical ↔ call.target? = other.target? ∧
      Option.Rel (List.Forall₂ Alike) call.arguments? other.arguments? := by
  cases call with
  | noop => cases other <;> simp [Invocation.canonical, Invocation.target?, Invocation.arguments?]
  | forward target =>
    cases other <;> simp [Invocation.canonical, Invocation.target?, Invocation.arguments?]
  | bound target arguments =>
    cases other <;> simp [Invocation.canonical, Invocation.target?, Invocation.arguments?,
      canonicalItems_eq_map, forall₂_alike_iff]

theorem alike_invocation_iff (call : Invocation) (value : Value) :
    Alike (.invocation call) value ↔
      ∃ other, value = .invocation other ∧ call.target? = other.target? ∧
        Option.Rel (List.Forall₂ Alike) call.arguments? other.arguments? := by
  rw [alike_iff]
  cases value with
  | invocation other =>
    simp only [canonical, invocation.injEq, canonical_invocation_iff, exists_eq_left']
  | null | bool | number | string | array | object | function => simp [canonical]

/-- Being the same is an equivalence. Objects in order are the same exactly if they
have the same names and values that are the same under each of them. Every lookup
finds values that are the same in values that are the same. A function is the same as
itself only, and a call as calls of the same function whose arguments, if there are
any, are the same one by one. -/
theorem alike_laws :
    Equivalence Alike ∧
    (∀ members others, Fields.Sorted members → Fields.Sorted others →
      (Alike (.object members) (.object others) ↔
        (∀ name, name ∈ Fields.names members ↔ name ∈ Fields.names others) ∧
        ∀ name x y, Fields.get? name members = some x → Fields.get? name others = some y →
          Alike x y)) ∧
    (∀ x y, Alike x y → ∀ path, Option.Rel Alike (x.at? path) (y.at? path)) ∧
    (∀ callable value, Alike (.function callable) value ↔ value = .function callable) ∧
    ∀ call value, Alike (.invocation call) value ↔
      ∃ other, value = .invocation other ∧ call.target? = other.target? ∧
        Option.Rel (List.Forall₂ Alike) call.arguments? other.arguments? := by
  refine ⟨alike_equivalence, ?_, ?_, alike_function_iff, alike_invocation_iff⟩
  · intro members others hmembers hothers
    rw [alike_object_iff_of_sorted hmembers hothers, forall_rel_get?_iff]
  · intro x y h path
    exact h.at? path

/-- A size of zero and a call that is given it. -/
def sized (negative : Bool) : List (String × Value) :=
  let zero : Value := .number (.real (.zero negative))
  Fields.ofList [("size", zero), ("go", .invocation (.bound ⟨1, "go"⟩ [zero, .function ⟨2, "ok"⟩]))]

/-- The sign of a zero does not matter, in a member or in the arguments of a call. -/
theorem alike_laws_sized :
    Fields.Sorted (sized true) ∧ Fields.Sorted (sized false) ∧
      Alike (.object (sized true)) (.object (sized false)) ∧
      (∀ name, name ∈ Fields.names (sized true) ↔ name ∈ Fields.names (sized false)) ∧
      Option.Rel Alike ((object (sized true)).at? "size") ((object (sized false)).at? "size") := by
  obtain ⟨-, hobjects, hlookups, -, -⟩ := alike_laws
  have hleft : Fields.Sorted (sized true) := Fields.sorted_ofList _
  have hright : Fields.Sorted (sized false) := Fields.sorted_ofList _
  have hsame : Alike (.object (sized true)) (.object (sized false)) := by
    unfold Alike
    cbv
  exact ⟨hleft, hright, hsame, ((hobjects _ _ hleft hright).1 hsame).1, hlookups _ _ hsame "size"⟩

end Value

end UiTemplate
