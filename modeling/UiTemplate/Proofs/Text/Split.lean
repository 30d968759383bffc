import UiTemplate.Text

/-!
How a text falls apart at a separator. The pieces are those of the library's own
split of a list, so its laws hold here; what follows are the laws about single
pieces that they are used for.
-/

namespace UiTemplate.Text

variable {separator : Char} {text suffix gap : List Char} {pieces : List (List Char)}

theorem splitOn_eq (separator : Char) (text : List Char) :
    splitOn separator text = text.splitOn separator := by
  induction text with
  | nil => rfl
  | cons c text ih =>
    rw [splitOn, List.splitOn_cons_eq_if_modifyHead, ih]
    by_cases h : c = separator
    · simp [h]
    · cases hsplit : text.splitOn separator with
      | nil => exact absurd hsplit (List.splitOn_ne_nil _ _)
      | cons piece pieces => simp [h]

theorem splitOn_of_not_mem (h : separator ∉ text) : splitOn separator text = [text] := by
  rw [splitOn_eq, List.splitOn_eq_singleton h]

theorem splitOn_eq_nil_singleton_iff : splitOn separator text = [[]] ↔ text = [] := by
  constructor
  · intro h
    have htext : [separator].intercalate (text.splitOn separator) = text :=
      List.intercalate_splitOn separator
    rw [← htext, ← splitOn_eq, h]
    rfl
  · rintro rfl
    rfl

/-- No piece has a separator in it. -/
theorem not_mem_of_mem_splitOn {piece : List Char} (h : piece ∈ splitOn separator text) :
    separator ∉ piece := by
  induction text generalizing piece with
  | nil =>
    rw [List.mem_singleton.1 h]
    exact List.not_mem_nil
  | cons c text ih =>
    rw [splitOn] at h
    split at h
    · rcases List.mem_cons.1 h with rfl | hrest
      · exact List.not_mem_nil
      · exact ih hrest
    · next hc =>
      cases hsplit : splitOn separator text with
      | nil => exact absurd hsplit (splitOn_ne_nil _ _)
      | cons first pieces =>
        rw [hsplit] at h ih
        rcases List.mem_cons.1 h with rfl | hrest
        · exact List.not_mem_cons_of_ne_of_not_mem (Ne.symm hc) (ih List.mem_cons_self)
        · exact ih (List.mem_cons_of_mem _ hrest)

/-- A character that occurs has a last occurrence. -/
theorem exists_append_cons_of_mem {c : Char} (h : c ∈ text) :
    ∃ front back, text = front ++ c :: back ∧ c ∉ back := by
  obtain ⟨back, front, hreverse, hback⟩ := List.eq_append_cons_of_mem (List.mem_reverse.2 h)
  refine ⟨front.reverse, back.reverse, ?_, by simpa using hback⟩
  simpa using congrArg List.reverse hreverse

/-- Every separator makes one more piece. -/
theorem length_splitOn (separator : Char) (text : List Char) :
    (splitOn separator text).length = text.count separator + 1 := by
  induction text with
  | nil => rfl
  | cons c text ih =>
    rw [splitOn]
    by_cases h : c = separator
    · rw [if_pos h, List.length_cons, ih, h, List.count_cons_self]
    · rw [if_neg h, List.count_cons_of_ne h]
      cases hsplit : splitOn separator text with
      | nil => exact absurd hsplit (splitOn_ne_nil _ _)
      | cons piece pieces =>
        rw [hsplit] at ih
        exact ih

/-- Text without separators goes to the last piece. -/
theorem splitOn_append_of_not_mem (h : separator ∉ suffix) (text : List Char) :
    ∃ front last, splitOn separator text = front ++ [last] ∧
      splitOn separator (text ++ suffix) = front ++ [last ++ suffix] := by
  induction text with
  | nil => exact ⟨[], [], rfl, splitOn_of_not_mem h⟩
  | cons c text ih =>
    obtain ⟨front, last, htext, happend⟩ := ih
    rw [List.cons_append, splitOn, splitOn, htext, happend]
    split
    · exact ⟨[] :: front, last, rfl, rfl⟩
    · cases front with
      | nil => exact ⟨[], c :: last, rfl, rfl⟩
      | cons piece front => exact ⟨(c :: piece) :: front, last, rfl, rfl⟩

theorem splitOn_append_left {front piece : List Char} (hfront : separator ∉ front)
    (htext : splitOn separator text = piece :: pieces) :
    splitOn separator (front ++ text) = (front ++ piece) :: pieces := by
  induction front with
  | nil => exact htext
  | cons c front ih =>
    obtain ⟨hc, hrest⟩ : separator ≠ c ∧ separator ∉ front := by simpa using hfront
    rw [List.cons_append, splitOn, if_neg (Ne.symm hc), ih hrest]
    rfl

theorem mem_of_mem_join {c : Char} (h : c ∈ join gap pieces) :
    c ∈ gap ∨ ∃ piece ∈ pieces, c ∈ piece := by
  induction pieces with
  | nil => cases h
  | cons piece pieces ih =>
    cases pieces with
    | nil => exact .inr ⟨piece, List.mem_singleton_self _, h⟩
    | cons next pieces =>
      rw [join, List.mem_append, List.mem_append] at h
      rcases h with (hpiece | hgap) | hrest
      · exact .inr ⟨piece, List.mem_cons_self, hpiece⟩
      · exact .inl hgap
      · rcases ih hrest with hgap | ⟨other, hother, hmem⟩
        · exact .inl hgap
        · exact .inr ⟨other, List.mem_cons_of_mem _ hother, hmem⟩

theorem append_join (gap text first : List Char) (others : List (List Char)) :
    text ++ join gap (first :: others) = join gap ((text ++ first) :: others) := by
  cases others with
  | nil => rfl
  | cons next others => simp [join]

/-- Pieces that are joined fall apart each by itself. Of a separator and a gap between
them, the gap stays with the piece that follows. -/
theorem splitOn_join_eq_flatMap (gap first : List Char) (others : List (List Char)) :
    splitOn separator (join (separator :: gap) (first :: others)) =
      splitOn separator first ++ others.flatMap fun piece => splitOn separator (gap ++ piece) := by
  induction others generalizing first with
  | nil => simp [join]
  | cons next others ih =>
    rw [join, List.append_assoc, List.cons_append, splitOn_append, append_join, ih,
      List.flatMap_cons]

/-- Pieces without a separator are read back. -/
theorem splitOn_join (hgap : separator ∉ gap) {first : List Char} {others : List (List Char)}
    (hfirst : separator ∉ first) (hothers : ∀ piece ∈ others, separator ∉ piece) :
    splitOn separator (join (separator :: gap) (first :: others)) =
      first :: others.map fun piece => gap ++ piece := by
  have hsingle : ∀ piece ∈ others, splitOn separator (gap ++ piece) = [gap ++ piece] := by
    intro piece hpiece
    exact splitOn_of_not_mem (by simp [hgap, hothers piece hpiece])
  rw [splitOn_join_eq_flatMap, splitOn_of_not_mem hfirst, List.singleton_append,
    List.map_eq_flatMap, List.flatMap_def, List.map_congr_left hsingle, ← List.flatMap_def]

end UiTemplate.Text
