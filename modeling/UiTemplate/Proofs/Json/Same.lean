import UiTemplate.Json

/-!
Every document is equal to itself, although floating-point numbers are compared
by value: there is none among them that is not a number.
-/

namespace UiTemplate

theorem Number.same_refl (n : Number) : n.same n = true := by
  cases n with
  | whole n => simp [same]
  | real x =>
    rw [same, Binary64.same_iff]
    exact ⟨rfl, .inl rfl⟩

namespace Json

mutual

theorem same_refl : (json : Json) → json.same json = true
  | .null => rfl
  | .bool b => by simp [same]
  | .number n => by rw [same, Number.same_refl n]
  | .string s => by simp [same]
  | .array items => by rw [same, sameItems_refl items]
  | .object members => by rw [same, sameMembers_refl members]

theorem sameItems_refl : (items : List Json) → sameItems items items = true
  | [] => rfl
  | item :: items => by rw [sameItems, same_refl item, sameItems_refl items, Bool.and_self]

theorem sameMembers_refl : (members : List (String × Json)) → sameMembers members members = true
  | [] => rfl
  | (name, value) :: members => by
    rw [sameMembers, same_refl value, sameMembers_refl members, beq_self_eq_true]
    rfl

end

end Json

end UiTemplate
