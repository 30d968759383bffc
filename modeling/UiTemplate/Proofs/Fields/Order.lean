import Mathlib.Data.List.Nodup
import Mathlib.Data.String.Basic
import UiTemplate.Fields

/-!
Fields in the order of their names. Putting fields together by insertion keeps them
in order, whatever comes first. In order each name stands once and in its place, so
fields are what can be looked up in them: there is no second way to list them.
-/

namespace UiTemplate.Fields

variable {α β : Type} {name : String} {value : α} {fields xs ys : Fields α}

theorem Sorted.nodup_names (h : Sorted fields) : (names fields).Nodup :=
  List.pairwise_map.2 (h.imp fun hlt => hlt.ne)

/-- An insertion keeps the names in order. -/
theorem Sorted.insert (h : Sorted fields) (name : String) (value : α) :
    Sorted (fields.insert name value) := by
  induction fields with
  | nil => exact List.pairwise_singleton _ _
  | cons field rest ih =>
    obtain ⟨key, old⟩ := field
    obtain ⟨hhead, hrest⟩ := List.pairwise_cons.1 h
    rw [Fields.insert]
    split
    · next heq =>
      subst heq
      exact List.pairwise_cons.2 ⟨hhead, hrest⟩
    split
    · next hlt =>
      refine List.pairwise_cons.2 ⟨?_, h⟩
      intro field hfield
      rcases List.mem_cons.1 hfield with rfl | hmem
      · exact hlt
      · exact hlt.trans (hhead field hmem)
    · next hne hnot =>
      refine List.pairwise_cons.2 ⟨?_, ih hrest⟩
      intro field hfield
      rcases mem_insert hfield with rfl | hmem
      · exact lt_of_le_of_ne (not_lt.1 hnot) hne
      · exact hhead field hmem

/-- Fields that are put together one after another are in order. -/
theorem sorted_ofList (members : List (String × α)) : Sorted (ofList members) := by
  rw [ofList]
  apply List.foldlRecOn (motive := Sorted)
  · exact List.Pairwise.nil
  · intro fields h member _
    exact h.insert member.1 member.2

theorem Sorted.mapValues (h : Sorted fields) (f : α → β) : Sorted (fields.mapValues f) :=
  List.Pairwise.map _ (fun _ _ hlt => hlt) h

theorem mem_names_iff : name ∈ names fields ↔ ∃ value, fields.get? name = some value := by
  constructor
  · intro h
    induction fields with
    | nil => cases h
    | cons field rest ih =>
      obtain ⟨key, old⟩ := field
      rw [get?]
      split
      · exact ⟨old, rfl⟩
      · next hkey => exact ih ((List.mem_cons.1 h).resolve_left (Ne.symm hkey))
  · rintro ⟨value, hvalue⟩
    exact List.mem_map.2 ⟨_, mem_of_get? hvalue, rfl⟩

/-- Where no name stands twice, every field can be looked up. -/
theorem get?_eq_some_iff (h : (names fields).Nodup) :
    fields.get? name = some value ↔ (name, value) ∈ fields := by
  constructor
  · exact mem_of_get?
  · intro hmem
    induction fields with
    | nil => cases hmem
    | cons field rest ih =>
      obtain ⟨key, old⟩ := field
      obtain ⟨hfresh, hrest⟩ := List.nodup_cons.1 h
      rw [get?]
      rcases List.mem_cons.1 hmem with heq | hmem
      · cases heq
        exact if_pos rfl
      · have hname : name ∈ names rest := List.mem_map.2 ⟨_, hmem, rfl⟩
        have hne : key ≠ name := fun heq => hfresh (heq ▸ hname)
        rw [if_neg hne]
        exact ih hrest hmem

/-- Where no name stands twice, it does not matter in which order the fields are. -/
theorem get?_eq_of_perm (h : (names xs).Nodup) (hperm : xs.Perm ys) (name : String) :
    xs.get? name = ys.get? name := by
  have hys : (names ys).Nodup := (hperm.map Prod.fst).nodup_iff.1 h
  ext value
  rw [get?_eq_some_iff h, get?_eq_some_iff hys, hperm.mem_iff]

/-- Leaving fields out by their names changes no other lookup. -/
theorem get?_filter (keep : String → Bool) (name : String) (fields : Fields α) :
    get? name (fields.filter fun field => keep field.1) =
      if keep name then fields.get? name else none := by
  induction fields with
  | nil => simp
  | cons field rest ih =>
    obtain ⟨key, old⟩ := field
    rw [List.filter_cons]
    by_cases hkey : key = name
    · subst hkey
      split
      · simp [get?]
      · next hdropped => simpa [hdropped] using ih
    · split <;> simp [get?, hkey, ih]

/-- Fields in order are known by what can be looked up in them. -/
theorem Sorted.ext (hxs : Sorted xs) (hys : Sorted ys)
    (h : ∀ name, xs.get? name = ys.get? name) : xs = ys := by
  have hmem : ∀ field, field ∈ xs ↔ field ∈ ys := by
    rintro ⟨name, value⟩
    rw [← get?_eq_some_iff hxs.nodup_names, h, get?_eq_some_iff hys.nodup_names]
  have hperm : xs.Perm ys :=
    (List.perm_ext_iff_of_nodup hxs.nodup_names.of_map hys.nodup_names.of_map).2 hmem
  exact hperm.eq_of_pairwise (fun _ _ _ _ hlt hgt => absurd hlt hgt.asymm) hxs hys

end UiTemplate.Fields
