import Mathlib.Logic.Function.Basic
import UiTemplate.Proofs.Fields.Last
import UiTemplate.Registry

/-!
What two registries have become after any registrations, where one may be copied over
the other at any time. Each of them has a history: what was registered in it, or in
the registry that it is a copy of, up to then. A registry is its history put together,
by an induction over the steps, and so whatever can be asked of it is answered by its
own history. The other registry has no part in it, copied or not.
-/

namespace UiTemplate.Registry

variable {E : Type}

inductive Side where
  | left
  | right
deriving DecidableEq

def Side.other : Side → Side
  | .left => .right
  | .right => .left

/-- What can be done with two registries: a registration, of which one either wants to
know what it replaces or goes on with the registry, and a copy over the other one. -/
inductive Step (E : Type) where
  | register (side : Side) (type : String) (constructor : Constructor E)
  | add (side : Side) (type : String) (constructor : Constructor E)
  | clone (source : Side)

def after (registries : Side → Registry E) : Step E → Side → Registry E
  | .register side type constructor =>
    Function.update registries side ((registries side).exchange type constructor).2
  | .add side type constructor =>
    Function.update registries side ((registries side).register type constructor)
  | .clone source => Function.update registries source.other (registries source)

/-- Both registries after these steps. There is nothing in them at first. -/
def run (steps : List (Step E)) : Side → Registry E :=
  steps.foldl after fun _ => empty

/-- What was registered in a registry, first things first. -/
abbrev History (E : Type) : Type := List (String × Constructor E)

/-- Both histories after one step more. A copy has the history of what it was copied
from. -/
def historiesAfter (histories : Side → History E) : Step E → Side → History E
  | .register side type constructor | .add side type constructor =>
    Function.update histories side (histories side ++ [(type, constructor)])
  | .clone source => Function.update histories source.other (histories source)

def histories (steps : List (Step E)) : Side → History E :=
  steps.foldl historiesAfter fun _ => []

/-- A registry is what was registered in it. -/
def Holds (registry : Registry E) (history : History E) : Prop :=
  registry.constructors = Fields.ofList history

namespace Holds

variable {registry : Registry E} {history : History E} {registries : Side → Registry E}
  {histories : Side → History E}

theorem register (h : Holds registry history) (type : String) (constructor : Constructor E) :
    Holds (registry.register type constructor) (history ++ [(type, constructor)]) := by
  rw [Holds, Fields.ofList_append_singleton, ← h]
  rfl

theorem update (h : ∀ side, Holds (registries side) (histories side)) (side : Side)
    (hside : Holds registry history) (other : Side) :
    Holds (Function.update registries side registry other)
      (Function.update histories side history other) := by
  rw [Function.update_apply, Function.update_apply]
  split
  · exact hside
  · exact h other

/-- Each step keeps both registries to their histories: a copy takes the history over with
the constructors. -/
theorem after (h : ∀ side, Holds (registries side) (histories side)) (step : Step E) :
    ∀ side, Holds (after registries step side) (historiesAfter histories step side) := by
  cases step with
  | register side type constructor =>
    rw [Registry.after, snd_exchange]
    exact update h side ((h side).register type constructor)
  | add side type constructor => exact update h side ((h side).register type constructor)
  | clone source => exact update h source.other (h source)

end Holds

/-- After any steps each registry holds what its own history says. -/
theorem holds_run (steps : List (Step E)) (side : Side) :
    Holds (run steps side) (histories steps side) := by
  induction steps using List.reverseRecOn generalizing side with
  | nil => rfl
  | append_singleton steps step ih =>
    rw [run, histories, List.foldl_append, List.foldl_append]
    exact Holds.after ih step side

variable {registry : Registry E} {history : History E}

/-- A type has the constructor that was registered for it last. -/
theorem Holds.get?_eq_some_iff (h : Holds registry history) {type : String}
    {constructor : Constructor E} :
    registry.get? type = some constructor ↔ Fields.IsLast type constructor history := by
  rw [get?, h]
  exact Fields.get?_ofList_eq_some_iff

theorem Holds.fst_exchange (h : Holds registry history) (type : String)
    (constructor : Constructor E) :
    (registry.exchange type constructor).1 = registry.get? type := by
  have hsorted : Fields.Sorted registry.constructors := by
    rw [h]
    exact Fields.sorted_ofList history
  exact hsorted.fst_exchange type constructor

theorem contains_iff (registry : Registry E) (type : String) :
    registry.contains type = true ↔ ∃ constructor, registry.get? type = some constructor :=
  Option.isSome_iff_exists

/-- The names are the registered types, each of them once. -/
theorem Holds.perm_names (h : Holds registry history) :
    registry.names.Perm (Fields.names history).dedup := by
  rw [names, h]
  exact Fields.perm_names_ofList history

theorem length_names (registry : Registry E) : registry.names.length = registry.size :=
  List.length_map _

theorem isEmpty_iff (registry : Registry E) : registry.isEmpty = true ↔ registry.size = 0 := by
  rw [isEmpty, size, List.isEmpty_iff, List.length_eq_zero_iff]

/-- After any steps, what is asked of a registry is answered by its history. For a type
there is the constructor that was registered last under that name, and the next
registration tells that it replaces just that one. A registry contains what something
is found for. Its types are the names that something was registered under, each listed
once; it has as many as there are different names, and is empty if there are none. -/
theorem answers_of_history (steps : List (Step E)) (side : Side) :
    (∀ type constructor, (run steps side).get? type = some constructor ↔
      Fields.IsLast type constructor (histories steps side)) ∧
    (∀ type constructor, ((run steps side).exchange type constructor).1 =
      (run steps side).get? type) ∧
    (∀ type, (run steps side).contains type = true ↔
      ∃ constructor, (run steps side).get? type = some constructor) ∧
    (run steps side).names.Perm (Fields.names (histories steps side)).dedup ∧
    (run steps side).size = (Fields.names (histories steps side)).dedup.length ∧
    ((run steps side).isEmpty = true ↔ (run steps side).size = 0) := by
  have h := holds_run steps side
  refine ⟨fun type constructor => h.get?_eq_some_iff, h.fst_exchange, contains_iff _,
    h.perm_names, ?_, isEmpty_iff _⟩
  rw [← h.perm_names.length_eq, length_names]

end UiTemplate.Registry
