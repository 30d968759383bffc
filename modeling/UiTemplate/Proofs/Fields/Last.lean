import Mathlib.Data.List.Dedup
import Mathlib.Data.List.Induction
import UiTemplate.Proofs.Fields.Order

/-!
Fields that are put together one after another. What they hold can be said without
the fields: under each name there is what was put there last, and the names are those
that something was put under. Insertion tells in passing what it replaces; where the
fields are in order, that is what was found under the name before.
-/

namespace UiTemplate.Fields

variable {α : Type} {name other : String} {value new : α} {fields : Fields α}
  {entries : List (String × α)}

/-- The last of the entries under a name holds this value. -/
def IsLast (name : String) (value : α) (entries : List (String × α)) : Prop :=
  ∃ before after, entries = before ++ (name, value) :: after ∧ name ∉ names after

theorem not_isLast_nil : ¬ IsLast name value ([] : List (String × α)) := by
  rintro ⟨before, after, heq, -⟩
  exact List.append_ne_nil_of_right_ne_nil before (List.cons_ne_nil _ _) heq.symm

/-- A new entry is the last under its own name and no other. -/
theorem isLast_append_singleton_iff :
    IsLast name value (entries ++ [(other, new)]) ↔
      (other = name ∧ new = value) ∨ (other ≠ name ∧ IsLast name value entries) := by
  constructor
  · rintro ⟨before, after, heq, hafter⟩
    cases after using List.reverseRecOn with
    | nil =>
      obtain ⟨-, hlast⟩ := List.append_singleton_inj.1 heq
      exact .inl (Prod.mk.inj hlast)
    | append_singleton after entry =>
      rw [← List.cons_append, ← List.append_assoc] at heq
      obtain ⟨rfl, rfl⟩ := List.append_singleton_inj.1 heq
      simp only [names, List.map_append, List.map_singleton, List.mem_append,
        List.mem_singleton, not_or] at hafter
      exact .inr ⟨Ne.symm hafter.2, before, after, rfl, hafter.1⟩
  · rintro (⟨rfl, rfl⟩ | ⟨hne, before, after, rfl, hafter⟩)
    · exact ⟨entries, [], rfl, List.not_mem_nil⟩
    · refine ⟨before, after ++ [(other, new)], by simp, ?_⟩
      simpa [names, hne.symm] using hafter

/-- Entries are collected one after the other, so a later one is inserted over
the earlier. -/
theorem ofList_append_singleton (entries : List (String × α)) (name : String) (value : α) :
    ofList (entries ++ [(name, value)]) = (ofList entries).insert name value := by
  rw [ofList, List.foldl_append]
  rfl

/-- Under a name there is what was put there last. -/
theorem get?_ofList_eq_some_iff :
    (ofList entries).get? name = some value ↔ IsLast name value entries := by
  induction entries using List.reverseRecOn with
  | nil => exact iff_of_false (by simp [ofList]) not_isLast_nil
  | append_singleton entries entry ih =>
    obtain ⟨other, new⟩ := entry
    rw [ofList_append_singleton, get?_insert, isLast_append_singleton_iff, ← ih]
    by_cases h : other = name
    · simp [h]
    · simp [h, Ne.symm h]

theorem mem_names_insert :
    other ∈ names (fields.insert name value) ↔ other = name ∨ other ∈ names fields := by
  rw [mem_names_iff, mem_names_iff, get?_insert]
  split
  · next heq => simp [heq]
  · next hne => simp [hne]

theorem mem_names_ofList : name ∈ names (ofList entries) ↔ name ∈ names entries := by
  induction entries using List.reverseRecOn with
  | nil => rfl
  | append_singleton entries entry ih =>
    obtain ⟨other, new⟩ := entry
    rw [ofList_append_singleton, mem_names_insert, ih]
    simp [names, or_comm]

/-- The names are those that something was put under, each once. -/
theorem perm_names_ofList (entries : List (String × α)) :
    (names (ofList entries)).Perm (names entries).dedup := by
  rw [List.perm_ext_iff_of_nodup (sorted_ofList entries).nodup_names (List.nodup_dedup _)]
  intro name
  rw [mem_names_ofList, List.mem_dedup]

/-- Where no name stands twice, every entry is the last one of its name. -/
theorem isLast_iff_mem (h : (names entries).Nodup) :
    IsLast name value entries ↔ (name, value) ∈ entries := by
  constructor
  · rintro ⟨before, after, rfl, -⟩
    exact List.mem_append_right _ List.mem_cons_self
  · intro hmem
    obtain ⟨before, after, rfl⟩ := List.append_of_mem hmem
    refine ⟨before, after, rfl, ?_⟩
    rw [names, List.map_append, List.map_cons] at h
    exact (List.nodup_cons.1 h.of_append_right).1

/-- Fields in order are what comes of putting them together again, in whatever order. -/
theorem Sorted.ofList_eq_of_perm (h : Sorted fields) (hperm : entries.Perm fields) :
    ofList entries = fields := by
  have hentries : (names entries).Nodup := (hperm.map Prod.fst).nodup_iff.2 h.nodup_names
  refine (sorted_ofList entries).ext h fun name => Option.ext fun value => ?_
  rw [get?_ofList_eq_some_iff, isLast_iff_mem hentries, hperm.mem_iff,
    get?_eq_some_iff h.nodup_names]

/-- What an insertion replaces is what was there. An insertion goes in front of the
first greater name and does not look any further, so this takes fields in order. -/
theorem Sorted.fst_exchange (h : Sorted fields) (name : String) (value : α) :
    (fields.exchange name value).1 = fields.get? name := by
  induction fields with
  | nil => rfl
  | cons field rest ih =>
    obtain ⟨key, old⟩ := field
    obtain ⟨hhead, hrest⟩ := List.pairwise_cons.1 h
    rw [exchange, get?]
    split
    · rfl
    split
    · next hlt =>
      symm
      apply get?_eq_none_of_not_mem
      intro hmem
      obtain ⟨field, hfield, rfl⟩ := List.mem_map.1 hmem
      exact (hlt.trans (hhead field hfield)).false
    · exact ih hrest

end UiTemplate.Fields
