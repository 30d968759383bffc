import UiTemplate.Context

/-!
What a lookup finds after an insertion. Two paths meet in one of three ways: the
lookup goes on below the place of the insertion, it stops above it, or the two
part at some position. Only in the last case does it matter what was there
before. A lookup follows arrays by index, an insertion puts an object in their
place; so what stood beside the inserted path is still there exactly if
everything on the way to where the paths part was an object.
-/

namespace UiTemplate

namespace Path

/-- The first position at which two paths differ. Both go on that far. -/
structure PartAt (path query : List String) (position : Nat) : Prop where
  take_eq : path.take position = query.take position
  lt_path : position < path.length
  lt_query : position < query.length
  ne : path[position]? ≠ query[position]?

variable {path query : List String} {position : Nat}

/-- Paths that part share the segments in front of the place and differ in the one at it. -/
theorem PartAt.exists_append (h : PartAt path query position) :
    ∃ shared left right front back, shared = path.take position ∧ shared.length = position ∧
      left ≠ right ∧ path = shared ++ left :: front ∧ query = shared ++ right :: back := by
  have hpath := h.lt_path
  have hquery := h.lt_query
  refine ⟨path.take position, path[position], query[position], path.drop (position + 1),
    query.drop (position + 1), rfl, ?_, ?_, ?_, ?_⟩
  · rw [List.length_take]
    omega
  · have hne := h.ne
    rw [List.getElem?_eq_getElem hpath, List.getElem?_eq_getElem hquery] at hne
    exact fun heq => hne (congrArg some heq)
  · rw [← List.drop_eq_getElem_cons hpath, List.take_append_drop]
  · rw [h.take_eq, ← List.drop_eq_getElem_cons hquery, List.take_append_drop]

/-- If neither path begins with the other, they part somewhere. -/
theorem exists_partAt (hpath : ¬ path <+: query) (hquery : ¬ query <+: path) :
    ∃ position, PartAt path query position := by
  induction path generalizing query with
  | nil => exact absurd List.nil_prefix hpath
  | cons segment path ih =>
    cases query with
    | nil => exact absurd List.nil_prefix hquery
    | cons other query =>
      by_cases heq : segment = other
      · subst heq
        rw [List.cons_prefix_cons] at hpath hquery
        obtain ⟨position, h⟩ := ih (fun hp => hpath ⟨rfl, hp⟩) (fun hq => hquery ⟨rfl, hq⟩)
        have htake := congrArg (segment :: ·) h.take_eq
        exact ⟨position + 1, htake, Nat.succ_lt_succ h.lt_path, Nat.succ_lt_succ h.lt_query, h.ne⟩
      · exact ⟨0, rfl, Nat.zero_lt_succ _, Nat.zero_lt_succ _, by simpa using heq⟩

end Path

namespace Value

def IsObject (found : Option Value) : Prop :=
  ∃ members, found = some (.object members)

/-- What an insertion keeps of what it finds: the members of an object, and
nothing of anything else. -/
def membersIn (old : Option Value) : List (String × Value) :=
  (old.map members).getD []

variable {new : Value} {old : Option Value} {segment other : String}
  {segments front back : List String}

theorem put_cons (new : Value) (segment : String) (segments : List String) (old : Option Value) :
    put new (segment :: segments) old =
      .object (Fields.insert segment (put new segments (Fields.get? segment (membersIn old)))
        (membersIn old)) :=
  rfl

/-- Something that is put below a value makes it an object. -/
theorem isObject_put (new : Value) (hsegments : segments ≠ []) (old : Option Value) :
    IsObject (some (put new segments old)) := by
  cases segments with
  | nil => exact absurd rfl hsegments
  | cons segment segments => exact ⟨_, congrArg some (put_cons new segment segments old)⟩

theorem get?_membersIn_of_isObject (h : IsObject old) (segment : String) :
    Fields.get? segment (membersIn old) = old.bind fun value => value.child? segment := by
  obtain ⟨members, rfl⟩ := h
  rfl

theorem membersIn_of_not_isObject (h : ¬ IsObject old) : membersIn old = [] := by
  cases old with
  | none => rfl
  | some value =>
    cases value with
    | object members => exact absurd ⟨members, rfl⟩ h
    | null => rfl
    | bool b => rfl
    | number n => rfl
    | string s => rfl
    | array items => rfl
    | function callable => rfl
    | invocation call => rfl

/-- Behind the first segment of the path, a lookup goes on in what was put there. -/
theorem lookup?_put_cons_self (rest : List String) :
    (put new (segment :: segments) old).lookup? (segment :: rest) =
      (put new segments (Fields.get? segment (membersIn old))).lookup? rest := by
  rw [put_cons, lookup?, child?, Fields.get?_insert_self, Option.bind_some]

/-- Beside the path a lookup finds the members of the old value, and no items of a list. -/
theorem lookup?_put_cons_of_ne (hne : other ≠ segment) (rest : List String) :
    (put new (segment :: segments) old).lookup? (other :: rest) =
      (Fields.get? other (membersIn old)).bind fun part => part.lookup? rest := by
  rw [put_cons, lookup?, child?, Fields.get?_insert_of_ne hne]

/-- Below the place of the insertion there is only what was inserted. -/
theorem lookup?_put_append (new : Value) (segments rest : List String) (old : Option Value) :
    (put new segments old).lookup? (segments ++ rest) = new.lookup? rest := by
  induction segments generalizing old with
  | nil => rfl
  | cons segment segments ih => rw [List.cons_append, lookup?_put_cons_self, ih]

/-- All along the path that something was put at there are objects. -/
theorem isObject_lookup?_put (hback : back ≠ []) (old : Option Value) :
    IsObject ((put new (front ++ back) old).lookup? front) := by
  induction front generalizing old with
  | nil => exact isObject_put new hback old
  | cons segment front ih =>
    rw [List.cons_append, lookup?_put_cons_self]
    exact ih _

/-- Everything on the way along the segments is an object, from the start to
the end. -/
def ObjectsAlong (old : Option Value) (segments : List String) : Prop :=
  ∀ count ≤ segments.length,
    IsObject (old.bind fun value => value.lookup? (segments.take count))

theorem ObjectsAlong.isObject (h : ObjectsAlong old segments) : IsObject old := by
  simpa [lookup?] using h 0 (Nat.zero_le _)

theorem bind_lookup?_cons (h : IsObject old) (segment : String) (rest : List String) :
    (old.bind fun value => value.lookup? (segment :: rest)) =
      (Fields.get? segment (membersIn old)).bind fun part => part.lookup? rest := by
  rw [get?_membersIn_of_isObject h, Option.bind_assoc]
  rfl

theorem objectsAlong_cons (h : IsObject old) :
    ObjectsAlong old (segment :: segments) ↔
      ObjectsAlong (Fields.get? segment (membersIn old)) segments := by
  constructor
  · intro halong count hcount
    rw [← bind_lookup?_cons h]
    exact halong (count + 1) (Nat.succ_le_succ hcount)
  · intro halong count hcount
    cases count with
    | zero => simpa [lookup?] using h
    | succ count =>
      rw [List.take_succ_cons, bind_lookup?_cons h]
      exact halong count (Nat.le_of_succ_le_succ hcount)

/-- Where there was something else than an object before the paths part, nothing
is left beside the inserted path; where there was not, nothing has changed. -/
theorem lookup?_put_of_ne (new : Value) (hne : other ≠ segment) (shared front back : List String)
    (old : Option Value) :
    (ObjectsAlong old shared →
      (put new (shared ++ segment :: front) old).lookup? (shared ++ other :: back) =
        old.bind fun value => value.lookup? (shared ++ other :: back)) ∧
    (¬ ObjectsAlong old shared →
      (put new (shared ++ segment :: front) old).lookup? (shared ++ other :: back) = none) := by
  induction shared generalizing old with
  | nil =>
    rw [List.nil_append, List.nil_append, lookup?_put_cons_of_ne hne]
    refine ⟨fun halong => (bind_lookup?_cons halong.isObject other back).symm, ?_⟩
    intro halong
    have hnot : ¬ IsObject old := by
      intro hobject
      refine halong ?_
      intro count _
      simpa [lookup?] using hobject
    rw [membersIn_of_not_isObject hnot, Fields.get?_nil, Option.bind_none]
  | cons name shared ih =>
    rw [List.cons_append, List.cons_append, lookup?_put_cons_self]
    by_cases hobject : IsObject old
    · rw [objectsAlong_cons hobject, bind_lookup?_cons hobject]
      exact ih _
    · refine ⟨fun halong => absurd halong.isObject hobject, fun _ => ?_⟩
      -- From here on the insertion has made every object anew
      rw [membersIn_of_not_isObject hobject, Fields.get?_nil]
      apply (ih none).2
      intro halong
      obtain ⟨members, hnone⟩ := halong.isObject
      cases hnone

end Value

namespace Context

open UiTemplate.Path (segments PartAt)

variable (context : Context) (path : String) (value : Value)

theorem root_insert :
    (context.insert path value).root = value.put (segments path) (some context.root) := by
  obtain ⟨members, hput⟩ :=
    Value.isObject_put value (Path.segments_ne_nil path) (some context.root)
  rw [Option.some.injEq] at hput
  rw [root, insert, hput]
  rfl

theorem get?_insert_eq (query : String) :
    (context.insert path value).get? query =
      (value.put (segments path) (some context.root)).lookup? (segments query) := by
  rw [get?, root_insert, Value.at?]

/-- After an insertion, whatever the context held before: a lookup that goes
through the path finds the value and what is below it, and one that stops above
finds an object. A lookup that parts from the path finds what it found before if
there was an object at every place up to where they part, the root included, and
otherwise nothing. What is put at the path makes the root another object and
nothing else, and that object is the new root: no insertion gets lost. -/
theorem lookup_after_insert (query : String) :
    (∀ rest, segments query = segments path ++ rest →
      (context.insert path value).get? query = value.lookup? rest) ∧
    (segments query = segments path →
      (context.insert path value).get? query = some value) ∧
    (segments query <+: segments path → segments query ≠ segments path →
      Value.IsObject ((context.insert path value).get? query)) ∧
    (¬ segments path <+: segments query → ¬ segments query <+: segments path →
      ∃ position, PartAt (segments path) (segments query) position ∧
        ((∀ count ≤ position,
            Value.IsObject (context.root.lookup? ((segments path).take count))) →
          (context.insert path value).get? query = context.get? query) ∧
        ((∃ count ≤ position,
            ¬ Value.IsObject (context.root.lookup? ((segments path).take count))) →
          (context.insert path value).get? query = none)) ∧
    (context.insert path value).root = value.put (segments path) (some context.root) ∧
    Value.IsObject (some (value.put (segments path) (some context.root))) := by
  have hbelow : ∀ rest, segments query = segments path ++ rest →
      (context.insert path value).get? query = value.lookup? rest := by
    intro rest hrest
    rw [get?_insert_eq, hrest, Value.lookup?_put_append]
  refine ⟨hbelow, ?_, ?_, ?_, context.root_insert path value,
    Value.isObject_put value (Path.segments_ne_nil path) (some context.root)⟩
  · intro heq
    exact hbelow [] (by rw [heq, List.append_nil])
  · rintro ⟨back, hback⟩ hne
    rw [get?_insert_eq, ← hback]
    apply Value.isObject_lookup?_put
    rintro rfl
    exact hne (by rw [← hback, List.append_nil])
  · intro hpath hquery
    obtain ⟨position, hpart⟩ := Path.exists_partAt hpath hquery
    obtain ⟨shared, left, right, front, back, hshared, hlength, hne, hleft, hright⟩ :=
      hpart.exists_append
    obtain ⟨hsame, hnone⟩ :=
      Value.lookup?_put_of_ne value hne.symm shared front back (some context.root)
    rw [← hleft, ← hright, ← get?_insert_eq] at hsame hnone
    have halong : Value.ObjectsAlong (some context.root) shared ↔ ∀ count ≤ position,
        Value.IsObject (context.root.lookup? ((segments path).take count)) := by
      rw [Value.ObjectsAlong, hlength, hshared]
      apply forall₂_congr
      intro count hcount
      rw [List.take_take, Nat.min_eq_left hcount, Option.bind_some]
    refine ⟨position, hpart, fun hobjects => hsame (halong.2 hobjects), ?_⟩
    rintro ⟨count, hcount, hnot⟩
    exact hnone fun hobjects => hnot (halong.1 hobjects count hcount)

/-- A list of items with a price, and a user. -/
def shelf : Context :=
  ⟨[("items", .array [.object [("price", .bool true)]]),
    ("user", .object [("name", .string "Ann")])]⟩

/-- An insertion into an item makes an object of the whole list, and the price is gone. -/
theorem lookup_after_insert_shelf :
    ¬ segments "items.0.name" <+: segments "items.0.price" ∧
      ¬ segments "items.0.price" <+: segments "items.0.name" ∧
      shelf.get? "items.0.price" = some (.bool true) ∧
      (shelf.insert "items.0.name" (.string "tea")).get? "items.0.price" = none ∧
      (shelf.insert "items.0.name" (.string "tea")).get? "user.name" = some (.string "Ann") ∧
      (shelf.insert "items.0.name" (.string "tea")).get? "items.0.name" = some (.string "tea") ∧
      Value.IsObject ((shelf.insert "items.0.name" (.string "tea")).get? "items") := by
  have hprice : ¬ segments "items.0.name" <+: segments "items.0.price" ∧
      ¬ segments "items.0.price" <+: segments "items.0.name" := by decide
  have huser : ¬ segments "items.0.name" <+: segments "user.name" ∧
      ¬ segments "user.name" <+: segments "items.0.name" := by decide
  have habove : segments "items" <+: segments "items.0.name" ∧
      segments "items" ≠ segments "items.0.name" := by decide
  have hcases := shelf.lookup_after_insert "items.0.name" (.string "tea")
  obtain ⟨_, hfound, _⟩ := hcases "items.0.name"
  obtain ⟨_, _, hobject, _⟩ := hcases "items"
  obtain ⟨_, _, _, hparted, _⟩ := hcases "items.0.price"
  obtain ⟨_, _, _, hfar, _⟩ := hcases "user.name"
  obtain ⟨apart, hapart, _, hnone⟩ := hparted hprice.1 hprice.2
  obtain ⟨position, hposition, hsame, _⟩ := hfar huser.1 huser.2
  refine ⟨hprice.1, hprice.2, rfl, hnone ?_, hsame ?_, hfound rfl, hobject habove.1 habove.2⟩
  · -- The list of items is no object, and the paths part behind it
    refine ⟨1, ?_, ?_⟩
    · cases apart with
      | zero => exact absurd rfl hapart.ne
      | succ apart => exact Nat.succ_le_succ (Nat.zero_le apart)
    · rintro ⟨members, hitems⟩
      cases hitems
  · intro count hcount
    cases position with
    | zero =>
      obtain rfl := Nat.le_zero.1 hcount
      exact ⟨_, rfl⟩
    | succ position =>
      have hnames : "items" = "user" := (List.cons.inj hposition.take_eq).1
      exact absurd hnames (by decide)

end Context

end UiTemplate
