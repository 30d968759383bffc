/-!
Named fields, kept as a list in the order of their names. JSON objects, the
objects of a context, props, registries and headers are all such lists. Types
that contain themselves through an object write the list out in full, because
a recursive type may not pass through an abbreviation; the operations here
apply to them all the same.

Insertion replaces the first field of the same name or goes in front of the
first greater one. On a list that is in order this keeps the order; the laws
about looking up what was inserted hold on every list.
-/

namespace UiTemplate

/-- Named fields. Names are compared by their characters' code points, which is
also the order of their UTF-8 bytes. -/
abbrev Fields (α : Type) : Type := List (String × α)

namespace Fields

variable {α β : Type}

def get? (name : String) : Fields α → Option α
  | [] => none
  | (key, value) :: rest => if key = name then some value else get? name rest

def insert (name : String) (value : α) : Fields α → Fields α
  | [] => [(name, value)]
  | (key, old) :: rest =>
    if key = name then (name, value) :: rest
    else if name < key then (name, value) :: (key, old) :: rest
    else (key, old) :: insert name value rest

/-- An insertion together with the value that it replaces, if there is one. -/
def exchange (name : String) (value : α) : Fields α → Option α × Fields α
  | [] => (none, [(name, value)])
  | (key, old) :: rest =>
    if key = name then (some old, (name, value) :: rest)
    else if name < key then (none, (name, value) :: (key, old) :: rest)
    else
      let (replaced, rest) := exchange name value rest
      (replaced, (key, old) :: rest)

/-- The fields in order; of two with the same name the later one counts. -/
def ofList (members : List (String × α)) : Fields α :=
  members.foldl (fun fields (name, value) => fields.insert name value) []

def names (fields : Fields α) : List String :=
  fields.map Prod.fst

def contains (name : String) (fields : Fields α) : Bool :=
  (fields.get? name).isSome

def mapValues (f : α → β) (fields : Fields α) : Fields β :=
  fields.map fun (name, value) => (name, f value)

/-- The names are in strictly increasing order, so none occurs twice. -/
def Sorted (fields : Fields α) : Prop :=
  fields.Pairwise fun a b => a.1 < b.1

@[simp] theorem get?_nil (name : String) : get? name ([] : Fields α) = none := rfl

theorem mem_of_get? {name : String} {value : α} {fields : Fields α}
    (h : fields.get? name = some value) : (name, value) ∈ fields := by
  induction fields with
  | nil => simp at h
  | cons field rest ih =>
    obtain ⟨key, old⟩ := field
    rw [get?] at h
    split at h
    · next hkey => simp_all
    · exact List.mem_cons_of_mem _ (ih h)

theorem get?_eq_none_of_not_mem {name : String} {fields : Fields α}
    (h : name ∉ fields.names) : fields.get? name = none := by
  rw [Option.eq_none_iff_forall_ne_some]
  intro value hvalue
  exact h (List.mem_map.2 ⟨_, mem_of_get? hvalue, rfl⟩)

theorem get?_insert_self (name : String) (value : α) (fields : Fields α) :
    (fields.insert name value).get? name = some value := by
  induction fields with
  | nil => simp [insert, get?]
  | cons field rest ih =>
    obtain ⟨key, old⟩ := field
    rw [insert]
    split
    · simp [get?]
    · next h => split <;> simp [get?, h, ih]

theorem get?_insert_of_ne {name other : String} (h : other ≠ name) (value : α)
    (fields : Fields α) : (fields.insert name value).get? other = fields.get? other := by
  induction fields with
  | nil => simp [insert, get?, Ne.symm h]
  | cons field rest ih =>
    obtain ⟨key, old⟩ := field
    rw [insert]
    split
    · next hk => subst hk; simp [get?, Ne.symm h]
    · split <;> simp [get?, Ne.symm h, ih]

theorem get?_insert (name other : String) (value : α) (fields : Fields α) :
    (fields.insert name value).get? other =
      if other = name then some value else fields.get? other := by
  split
  · next h => rw [h, get?_insert_self]
  · next h => exact get?_insert_of_ne h value fields

theorem mem_insert {name : String} {value : α} {fields : Fields α} {field : String × α}
    (h : field ∈ fields.insert name value) : field = (name, value) ∨ field ∈ fields := by
  induction fields with
  | nil => simpa [insert] using h
  | cons head rest ih => grind [insert]

theorem snd_exchange (name : String) (value : α) (fields : Fields α) :
    (fields.exchange name value).2 = fields.insert name value := by
  induction fields with
  | nil => rfl
  | cons field rest ih => grind [exchange, insert]

/-- Of two insertions under one name the later one counts. -/
theorem insert_insert_self (name : String) (first second : α) (fields : Fields α) :
    (fields.insert name first).insert name second = fields.insert name second := by
  induction fields with
  | nil => simp [insert]
  | cons field rest ih =>
    obtain ⟨key, old⟩ := field
    by_cases hkey : key = name
    · simp [insert, hkey]
    · by_cases hlt : name < key
      · simp [insert, hkey, hlt]
      · simp [insert, hkey, hlt, ih]

/-- Insertions under different names can change places. That the fields are in
order is not needed: each of them goes in front of the first greater one. -/
theorem insert_comm {first second : String} (hne : first ≠ second) (a b : α)
    (fields : Fields α) :
    (fields.insert first a).insert second b = (fields.insert second b).insert first a := by
  induction fields with
  | nil => grind [insert]
  | cons field rest ih =>
    obtain ⟨key, old⟩ := field
    grind [insert]

theorem get?_mapValues (f : α → β) (name : String) (fields : Fields α) :
    (fields.mapValues f).get? name = (fields.get? name).map f := by
  induction fields with
  | nil => rfl
  | cons field rest ih =>
    obtain ⟨key, old⟩ := field
    simp only [mapValues, List.map_cons, get?]
    split
    · rfl
    · exact ih

end Fields

end UiTemplate
