import UiTemplate.Proofs.Context.Insertion

/-!
Two insertions in a row. An insertion makes objects of whatever is in its way,
so two of them may well destroy the same array, and each of them may make objects
that the other one uses. Neither matters: at paths of which neither begins the
other the order makes no difference, and an insertion at a path or above it
leaves nothing of an earlier one. Both laws are laws of `Value.put`, by induction
on what the two paths share; where the paths part they come down to two
insertions of fields in one object.
-/

namespace UiTemplate

namespace Value

variable {segment left right : String}

/-- What an insertion has made has the members of the object that was made. -/
theorem membersIn_put_cons (new : Value) (segment : String) (segments : List String)
    (old : Option Value) :
    membersIn (some (put new (segment :: segments) old)) =
      Fields.insert segment (put new segments (Fields.get? segment (membersIn old)))
        (membersIn old) :=
  rfl

/-- Two insertions that go through the same member are two insertions in that
member. -/
theorem put_cons_put_cons_self (second first : Value) (segment : String)
    (segments others : List String) (old : Option Value) :
    put second (segment :: segments) (some (put first (segment :: others) old)) =
      .object (Fields.insert segment
        (put second segments (some (put first others (Fields.get? segment (membersIn old)))))
        (membersIn old)) := by
  rw [put_cons, membersIn_put_cons, Fields.get?_insert_self, Fields.insert_insert_self]

/-- Two insertions that go through different members make each member from what
there was at first. -/
theorem put_cons_put_cons_of_ne (second first : Value) (hne : left ≠ right)
    (front back : List String) (old : Option Value) :
    put second (right :: back) (some (put first (left :: front) old)) =
      .object (Fields.insert right (put second back (Fields.get? right (membersIn old)))
        (Fields.insert left (put first front (Fields.get? left (membersIn old)))
          (membersIn old))) := by
  rw [put_cons, membersIn_put_cons, Fields.get?_insert_of_ne hne.symm]

/-- An insertion at a place or above it leaves nothing of an earlier one. -/
theorem put_put_append (second first : Value) (front back : List String) (old : Option Value) :
    put second front (some (put first (front ++ back) old)) = put second front old := by
  induction front generalizing old with
  | nil => rfl
  | cons segment front ih => rw [List.cons_append, put_cons_put_cons_self, ih, ← put_cons]

/-- Insertions at places that part can be made in either order. -/
theorem put_comm (second first : Value) (hne : left ≠ right) (shared front back : List String)
    (old : Option Value) :
    put second (shared ++ right :: back) (some (put first (shared ++ left :: front) old)) =
      put first (shared ++ left :: front) (some (put second (shared ++ right :: back) old)) := by
  induction shared generalizing old with
  | nil =>
    rw [List.nil_append, List.nil_append, put_cons_put_cons_of_ne second first hne,
      put_cons_put_cons_of_ne first second hne.symm, Fields.insert_comm hne]
  | cons segment shared ih =>
    rw [List.cons_append, List.cons_append, put_cons_put_cons_self, put_cons_put_cons_self, ih]

end Value

namespace Context

open UiTemplate.Path (segments)

theorem root_insert_insert (context : Context) (path later : String) (value new : Value) :
    ((context.insert path value).insert later new).root =
      new.put (segments later) (some (value.put (segments path) (some context.root))) := by
  rw [root_insert, root_insert]

/-- Whatever a context holds on the way, two insertions at paths of which neither
begins the other give the same root in either order, and after an insertion at a
path or above it the root is as if there had been no other insertion. -/
theorem insertions_in_a_row (context : Context) (path later : String) (value new : Value) :
    (¬ segments path <+: segments later → ¬ segments later <+: segments path →
      ((context.insert path value).insert later new).root =
        ((context.insert later new).insert path value).root) ∧
    (segments later <+: segments path →
      ((context.insert path value).insert later new).root = (context.insert later new).root) := by
  constructor
  · intro hpath hlater
    obtain ⟨_, hpart⟩ := Path.exists_partAt hpath hlater
    obtain ⟨shared, left, right, front, back, _, _, hne, hleft, hright⟩ := hpart.exists_append
    rw [root_insert_insert, root_insert_insert, hleft, hright]
    exact Value.put_comm new value hne shared front back (some context.root)
  · rintro ⟨back, hback⟩
    rw [root_insert_insert, root_insert, ← hback]
    exact Value.put_put_append new value (segments later) back (some context.root)

/-- The names of two items of a list, and then the list itself. -/
theorem insertions_in_a_row_shelf :
    ¬ segments "items.0.name" <+: segments "items.1.name" ∧
      ¬ segments "items.1.name" <+: segments "items.0.name" ∧
      ((shelf.insert "items.0.name" (.string "tea")).insert "items.1.name" .null).root =
        ((shelf.insert "items.1.name" .null).insert "items.0.name" (.string "tea")).root ∧
      segments "items" <+: segments "items.0.name" ∧
      ((shelf.insert "items.0.name" (.string "tea")).insert "items" .null).root =
        (shelf.insert "items" .null).root := by
  have hitems : ¬ segments "items.0.name" <+: segments "items.1.name" ∧
      ¬ segments "items.1.name" <+: segments "items.0.name" := by decide
  have habove : segments "items" <+: segments "items.0.name" := by decide
  exact ⟨hitems.1, hitems.2,
    (shelf.insertions_in_a_row "items.0.name" "items.1.name" (.string "tea") .null).1 hitems.1
      hitems.2,
    habove, (shelf.insertions_in_a_row "items.0.name" "items" (.string "tea") .null).2 habove⟩

end Context

end UiTemplate
