import UiTemplate.Proofs.Template.Positions

/-!
The keys that are made from positions. A key is a run of digits and dots, and
indices may have any number of digits; what keeps `1` below `0` apart from `10`
is that no index has a dot in it and that every index follows one. So the key of
a position can be read back, and a key with a dot behind it is the beginning of
just the keys of what is below it.
-/

namespace UiTemplate.NodePath

/-- The part of a key that is written for the steps down from the root. -/
def steps (path : NodePath) : List Char :=
  path.flatMap fun index => '.' :: Nat.toDigits 10 index

theorem toList_key (path : NodePath) : path.key.toList = '0' :: path.steps := by
  rw [key, String.toList_ofList, steps]

theorem steps_cons (index : Nat) (path : NodePath) :
    steps (index :: path) = '.' :: (Nat.toDigits 10 index ++ path.steps) := by
  simp [steps]

theorem steps_append (upper below : NodePath) :
    steps (upper ++ below) = upper.steps ++ below.steps := by
  simp [steps]

/-- The key of a position below another one goes on where the key of the other
one ends, with what is written for the steps between them. -/
theorem key_append (upper below : NodePath) :
    key (upper ++ below) = upper.key ++ String.ofList below.steps := by
  rw [← String.toList_inj, String.toList_append, String.toList_ofList, toList_key, toList_key,
    steps_append, List.cons_append]

theorem key_eq_zero_append (path : NodePath) : path.key = "0" ++ String.ofList path.steps :=
  key_append root path

theorem steps_cases (path : NodePath) : path.steps = [] ∨ ∃ rest, path.steps = '.' :: rest := by
  cases path with
  | nil => exact .inl rfl
  | cons index path => exact .inr ⟨_, steps_cons index path⟩

theorem not_mem_toDigits (index : Nat) : '.' ∉ Nat.toDigits 10 index := by
  intro h
  have hdigit : '.'.isDigit = true := Nat.isDigit_of_mem_toDigits (by decide) (by decide) h
  revert hdigit
  decide

theorem toDigits_injective {i j : Nat} (h : Nat.toDigits 10 i = Nat.toDigits 10 j) : i = j := by
  rw [← @Nat.ofDigitChars_ten_toDigits i, h, Nat.ofDigitChars_ten_toDigits]

/-- Where a mark ends a text without marks, nothing but the same text with a mark
behind it goes on in the same way. -/
theorem append_mark_isPrefix_iff {mark : Char} {left right : List Char} (hleft : mark ∉ left)
    (hright : mark ∉ right) (tail : List Char) {rest : List Char}
    (hrest : rest = [] ∨ ∃ others, rest = mark :: others) :
    left ++ mark :: tail <+: right ++ rest ↔ left = right ∧ mark :: tail <+: rest := by
  induction left generalizing right with
  | nil =>
    cases right with
    | nil => simp
    | cons c right =>
      have hne : mark ≠ c := by
        rintro rfl
        exact hright List.mem_cons_self
      simp [hne]
  | cons c left ih =>
    obtain ⟨hc, hleft⟩ : mark ≠ c ∧ mark ∉ left := by simpa using hleft
    cases right with
    | nil =>
      rcases hrest with rfl | ⟨others, rfl⟩
      · simp
      · simp [Ne.symm hc]
    | cons d right =>
      have hright : mark ∉ right := fun h => hright (List.mem_cons_of_mem d h)
      rw [List.cons_append, List.cons_append, List.cons_prefix_cons, ih hleft hright,
        List.cons.injEq, and_assoc]

theorem nil_isAbove_iff {lower : NodePath} : IsAbove [] lower ↔ lower ≠ [] := by
  simp [IsAbove, eq_comm]

theorem not_cons_isAbove_nil (index : Nat) (upper : NodePath) : ¬ IsAbove (index :: upper) [] := by
  simp [IsAbove]

theorem cons_isAbove_cons_iff {i j : Nat} {upper lower : NodePath} :
    IsAbove (i :: upper) (j :: lower) ↔ i = j ∧ IsAbove upper lower := by
  simp only [IsAbove, List.cons_prefix_cons, ne_eq, List.cons.injEq, not_and]
  constructor
  · rintro ⟨⟨hindex, hprefix⟩, hne⟩
    exact ⟨hindex, hprefix, hne hindex⟩
  · rintro ⟨hindex, hprefix, hne⟩
    exact ⟨⟨hindex, hprefix⟩, fun _ => hne⟩

/-- The dot behind the steps keeps one index from being the beginning of another. -/
theorem steps_dot_isPrefix_iff (upper lower : NodePath) :
    upper.steps ++ ['.'] <+: lower.steps ↔ upper.IsAbove lower := by
  induction upper generalizing lower with
  | nil =>
    rw [nil_isAbove_iff]
    cases lower with
    | nil => simp [steps]
    | cons j lower => simp [steps]
  | cons i upper ih =>
    cases lower with
    | nil => simp [steps, not_cons_isAbove_nil]
    | cons j lower =>
      -- Behind the digits of `i` comes a dot: that of the next step or the one at the end
      obtain ⟨tail, htail⟩ : ∃ tail, steps upper ++ ['.'] = '.' :: tail := by
        rcases steps_cases upper with hnil | ⟨rest, hcons⟩
        · exact ⟨[], by rw [hnil]; rfl⟩
        · exact ⟨rest ++ ['.'], by rw [hcons]; rfl⟩
      calc
        steps (i :: upper) ++ ['.'] <+: steps (j :: lower) ↔
            Nat.toDigits 10 i ++ '.' :: tail <+: Nat.toDigits 10 j ++ steps lower := by
          rw [steps_cons, steps_cons, List.cons_append, List.cons_prefix_cons, List.append_assoc,
            htail, and_iff_right rfl]
        _ ↔ Nat.toDigits 10 i = Nat.toDigits 10 j ∧ '.' :: tail <+: steps lower :=
          append_mark_isPrefix_iff (not_mem_toDigits i) (not_mem_toDigits j) tail (steps_cases lower)
        _ ↔ i = j ∧ IsAbove upper lower := by
          rw [← htail, ih]
          exact and_congr_left fun _ => ⟨toDigits_injective, fun h => by rw [h]⟩
        _ ↔ IsAbove (i :: upper) (j :: lower) := cons_isAbove_cons_iff.symm

/-- A key with a dot behind it begins the keys of what is below its node, and no
other keys. -/
theorem key_dot_isPrefix_iff (upper lower : NodePath) :
    (upper.key ++ ".").toList <+: lower.key.toList ↔ upper.IsAbove lower := by
  have hdot : ".".toList = ['.'] := rfl
  rw [String.toList_append, hdot, toList_key, toList_key, List.cons_append, List.cons_prefix_cons,
    and_iff_right rfl, steps_dot_isPrefix_iff]

/-- Above a child are its parent and what is above that. -/
theorem isAbove_child_iff {upper path : NodePath} {index : Nat} :
    upper.IsAbove (path.child index) ↔ upper <+: path := by
  rw [IsAbove, child, List.prefix_concat_iff]
  constructor
  · rintro ⟨heq | hprefix, hne⟩
    · exact absurd heq hne
    · exact hprefix
  · intro hprefix
    refine ⟨.inr hprefix, ?_⟩
    rintro rfl
    exact absurd hprefix.length_le (by simp)

/-- No two positions have the same key. -/
theorem key_injective {first second : NodePath} (h : first.key = second.key) : first = second := by
  -- Positions of the same key are above the same positions, so above each other's children
  have hsame (lower : NodePath) : first.IsAbove lower ↔ second.IsAbove lower := by
    rw [← key_dot_isPrefix_iff, ← key_dot_isPrefix_iff, h]
  have hfirst : first <+: second :=
    isAbove_child_iff.1 ((hsame (second.child 0)).2 (isAbove_child_iff.2 (List.prefix_refl _)))
  have hsecond : second <+: first :=
    isAbove_child_iff.1 ((hsame (first.child 0)).1 (isAbove_child_iff.2 (List.prefix_refl _)))
  exact hfirst.eq_of_length_le hsecond.length_le

end UiTemplate.NodePath
