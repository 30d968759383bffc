import UiTemplate.Text

/-!
Where a text is cut. A cut is made at the first occurrence of its marker, and
one is made whenever the marker occurs at all. If the first character of a
marker does not come up again in it, two occurrences cannot overlap; then the
marker does not occur before the first occurrence, not even in part.
-/

namespace UiTemplate.Text

variable {marker text before rest : List Char}

/-- The marker stands between `before` and `rest` and begins nowhere earlier. -/
structure IsFirstCut (marker text before rest : List Char) : Prop where
  eq_append : text = before ++ marker ++ rest
  first : ∀ front back, text = front ++ marker ++ back → before.length ≤ front.length

theorem after?_eq_none_iff : after? marker text = none ↔ ¬ marker <+: text := by
  constructor
  · rintro hnone ⟨rest, rfl⟩
    rw [after?_append] at hnone
    cases hnone
  · intro hnot
    rw [Option.eq_none_iff_forall_ne_some]
    intro rest hrest
    exact hnot ⟨rest, (after?_eq_some_iff.1 hrest).symm⟩

theorem isFirstCut_of_cut? (h : cut? marker text = some (before, rest)) :
    IsFirstCut marker text before rest := by
  refine ⟨eq_of_cut? h, ?_⟩
  induction text generalizing before with
  | nil =>
    obtain ⟨_, _, hpair⟩ := Option.map_eq_some_iff.1 h
    cases hpair
    intro front back _
    exact Nat.zero_le _
  | cons c text ih =>
    intro front back htext
    rw [cut?] at h
    split at h
    · cases h
      exact Nat.zero_le _
    · next hafter =>
      obtain ⟨⟨before, rest⟩, hcut, hpair⟩ := Option.map_eq_some_iff.1 h
      cases hpair
      cases front with
      | nil =>
        refine absurd ?_ (after?_eq_none_iff.1 hafter)
        exact ⟨back, by simpa using htext.symm⟩
      | cons d front =>
        have htail : text = front ++ marker ++ back := (List.cons.inj htext).2
        exact Nat.succ_le_succ (ih hcut front back htail)

theorem exists_cut? (marker front back : List Char) :
    ∃ before rest, cut? marker (front ++ marker ++ back) = some (before, rest) := by
  rw [List.append_assoc]
  induction front with
  | nil =>
    have hafter : after? marker (marker ++ back) = some back := after?_append marker back
    rw [List.nil_append]
    cases h : marker ++ back with
    | nil =>
      rw [h] at hafter
      exact ⟨[], back, by rw [cut?, hafter, Option.map_some]⟩
    | cons c text =>
      rw [h] at hafter
      exact ⟨[], back, by simp only [cut?, hafter]⟩
  | cons c front ih =>
    obtain ⟨before, rest, hcut⟩ := ih
    rw [List.cons_append, cut?]
    split
    · next found _ => exact ⟨[], found, rfl⟩
    · exact ⟨c :: before, rest, by rw [hcut, Option.map_some]⟩

/-- There is one first place. -/
theorem IsFirstCut.unique {other tail : List Char} (h : IsFirstCut marker text before rest)
    (hother : IsFirstCut marker text other tail) : before = other ∧ rest = tail := by
  have hlength : before.length = other.length :=
    Nat.le_antisymm (h.first _ _ hother.eq_append) (hother.first _ _ h.eq_append)
  have htext : before ++ (marker ++ rest) = other ++ (marker ++ tail) := by
    rw [← List.append_assoc, ← List.append_assoc, ← h.eq_append, ← hother.eq_append]
  obtain ⟨hbefore, hrest⟩ := List.append_inj htext hlength
  exact ⟨hbefore, List.append_cancel_left hrest⟩

/-- A text is cut at the first place where the marker stands. -/
theorem cut?_eq_some_iff :
    cut? marker text = some (before, rest) ↔ IsFirstCut marker text before rest := by
  constructor
  · exact isFirstCut_of_cut?
  · intro h
    obtain ⟨other, tail, hcut⟩ := exists_cut? marker before rest
    rw [← h.eq_append] at hcut
    obtain ⟨rfl, rfl⟩ := h.unique (isFirstCut_of_cut? hcut)
    exact hcut

/-- A text cannot be cut exactly if the marker is nowhere in it. -/
theorem cut?_eq_none_iff : cut? marker text = none ↔ ¬ marker <:+: text := by
  constructor
  · rintro hnone ⟨front, back, rfl⟩
    obtain ⟨before, rest, hcut⟩ := exists_cut? marker front back
    rw [hcut] at hnone
    cases hnone
  · intro hnot
    rw [Option.eq_none_iff_forall_ne_some]
    rintro ⟨before, rest⟩ hcut
    exact hnot ⟨before, rest, (eq_of_cut? hcut).symm⟩

theorem contains_eq_true_iff : contains marker text = true ↔ marker <:+: text := by
  rw [contains, Option.isSome_iff_ne_none, ne_eq, cut?_eq_none_iff, Decidable.not_not]

theorem IsFirstCut.not_infix (h : IsFirstCut marker text before rest) (hmarker : marker ≠ []) :
    ¬ marker <:+: before := by
  rintro ⟨front, back, rfl⟩
  have hle := h.first front (back ++ marker ++ rest) (by simp [h.eq_append])
  have hpos := List.length_pos_iff.2 hmarker
  simp only [List.length_append] at hle
  omega

/-- A marker whose first character does not come up again is cut at where it
stands if it does not occur before. -/
theorem isFirstCut_append {c : Char} {tail : List Char} (hc : c ∉ tail)
    (hbefore : ¬ (c :: tail) <:+: before) (rest : List Char) :
    IsFirstCut (c :: tail) (before ++ (c :: tail) ++ rest) before rest := by
  refine ⟨rfl, ?_⟩
  intro front back htext
  apply Nat.le_of_not_lt
  intro hlt
  -- The two occurrences start at different places of `before`
  simp only [List.append_assoc, List.cons_append] at htext
  rcases List.append_eq_append_iff.1 htext with ⟨gap, hfront, _⟩ | ⟨gap, hgap, hrest⟩
  · rw [hfront, List.length_append] at hlt
    omega
  cases gap with
  | nil =>
    rw [hgap, List.append_nil] at hlt
    omega
  | cons d gap =>
    obtain ⟨rfl, htail⟩ := List.cons.inj hrest
    rcases List.append_eq_append_iff.1 htail with ⟨shared, hgap', _⟩ | ⟨shared, htail', hc'⟩
    · exact hbefore ⟨front, shared, by simp [hgap, hgap']⟩
    · cases shared with
      | nil => exact hbefore ⟨front, [], by simp [hgap, htail']⟩
      | cons e shared =>
        obtain ⟨rfl, _⟩ := List.cons.inj hc'
        exact hc (by simp [htail'])

theorem singleton_infix_iff {c : Char} : [c] <:+: text ↔ c ∈ text := by
  constructor
  · intro h
    exact h.subset (List.mem_singleton_self c)
  · intro h
    obtain ⟨front, back, rfl⟩ := List.append_of_mem h
    exact ⟨front, back, by simp⟩

theorem takeWhile_of_not_mem {c : Char} (h : c ∉ text) : text.takeWhile (· != c) = text := by
  induction text with
  | nil => rfl
  | cons d text ih =>
    obtain ⟨hd, htext⟩ : c ≠ d ∧ c ∉ text := by simpa using h
    simp [hd.symm, ih htext]

theorem dropWhile_of_not_mem {c : Char} (h : c ∉ text) : text.dropWhile (· != c) = [] := by
  induction text with
  | nil => rfl
  | cons d text ih =>
    obtain ⟨hd, htext⟩ : c ≠ d ∧ c ∉ text := by simpa using h
    simp [hd.symm, ih htext]

/-- A cut at a single character goes by where the character first occurs. -/
theorem cut?_singleton (c : Char) (text : List Char) :
    cut? [c] text =
      if c ∈ text then
        some (text.takeWhile (· != c), (text.dropWhile (· != c)).drop 1)
      else none := by
  split
  · next h =>
    obtain ⟨before, rest, rfl, hbefore⟩ := List.eq_append_cons_of_mem h
    have hne : ∀ d ∈ before, (d != c) = true := fun d hd => by
      simpa using ne_of_mem_of_not_mem hd hbefore
    rw [cut?_append_cons hbefore, List.takeWhile_append_of_pos hne,
      List.dropWhile_append_of_pos hne]
    simp
  · next h => rwa [cut?_eq_none_iff, singleton_infix_iff]

theorem eraseFirst_singleton (c : Char) (text : List Char) :
    eraseFirst [c] text = text.erase c := by
  by_cases h : c ∈ text
  · obtain ⟨before, rest, rfl, hbefore⟩ := List.eq_append_cons_of_mem h
    rw [eraseFirst, cut?_append_cons hbefore, List.erase_append_right _ hbefore,
      List.erase_cons_head]
  · have hnone : cut? [c] text = none := by rwa [cut?_eq_none_iff, singleton_infix_iff]
    rw [eraseFirst, hnone, List.erase_of_not_mem h]

end UiTemplate.Text
