import UiTemplate.Html.Name

/-!
Names in lower case. Writing a name with hyphens between its words changes
capitals into small letters and adds hyphens, and nothing else, so what was a
name stays one.
-/

namespace UiTemplate.Html

theorem isUpper_iff {c : Char} : c.isUpper = true ↔ 65 ≤ c.toNat ∧ c.toNat ≤ 90 :=
  decide_eq_true_iff

theorem isLower_iff {c : Char} : c.isLower = true ↔ 97 ≤ c.toNat ∧ c.toNat ≤ 122 :=
  Bool.and_eq_true_iff.trans (and_congr decide_eq_true_iff decide_eq_true_iff)

theorem isDigit_iff {c : Char} : c.isDigit = true ↔ 48 ≤ c.toNat ∧ c.toNat ≤ 57 :=
  Bool.and_eq_true_iff.trans (and_congr decide_eq_true_iff decide_eq_true_iff)

theorem isNameChar_iff {c : Char} : isNameChar c = true ↔
    ((c.isUpper = true ∨ c.isLower = true) ∨ c.isDigit = true) ∨ c = '_' ∨ c = '-' := by
  have hkinds : isNameChar c =
      (((c.isUpper || c.isLower) || c.isDigit) || c == '_' || c == '-') := rfl
  simp only [hkinds, Bool.or_eq_true, beq_iff_eq, or_assoc]

theorem toLower_of_not_isUpper {c : Char} (h : c.isUpper = false) : c.toLower = c :=
  dif_neg (of_decide_eq_false h)

/-- Capitals stand 32 places in front of their small letters. -/
theorem toNat_toLower {c : Char} (h : c.isUpper = true) : c.toLower.toNat = c.toNat + 32 := by
  obtain ⟨_, hlast⟩ := isUpper_iff.1 h
  have hlower : c.toLower.toNat = (c.toNat + 32) % 4294967296 :=
    congrArg Char.toNat (dif_pos (of_decide_eq_true h))
  rw [hlower]
  exact Nat.mod_eq_of_lt (by omega)

theorem isLower_toLower {c : Char} (h : c.isUpper = true) : c.toLower.isLower = true := by
  have hbounds := isUpper_iff.1 h
  rw [isLower_iff, toNat_toLower h]
  omega

/-- There are no capitals in lower case. -/
theorem isUpper_toLower (c : Char) : c.toLower.isUpper = false := by
  cases hupper : c.isUpper with
  | false => rwa [toLower_of_not_isUpper hupper]
  | true =>
    have hbounds := isUpper_iff.1 hupper
    rw [Bool.eq_false_iff, ne_eq, isUpper_iff, toNat_toLower hupper]
    omega

theorem isNameChar_toLower {c : Char} (h : isNameChar c = true) : isNameChar c.toLower = true := by
  cases hupper : c.isUpper with
  | false => rwa [toLower_of_not_isUpper hupper]
  | true => exact isNameChar_iff.2 (.inl (.inl (.inr (isLower_toLower hupper))))

theorem toList_kebab (name : String) : (kebab name).toList = kebabAfter none name.toList :=
  String.toList_ofList

/-- Lower case adds nothing to a name but hyphens. -/
theorem mem_kebabAfter {previous : Option Char} {chars : List Char} {d : Char}
    (h : d ∈ kebabAfter previous chars) : d = '-' ∨ ∃ c ∈ chars, d = c.toLower := by
  induction chars generalizing previous with
  | nil => simp [kebabAfter] at h
  | cons c rest ih =>
    simp only [kebabAfter, List.mem_append, List.mem_cons] at h
    rcases h with hhyphen | rfl | hrest
    · split at hhyphen
      · exact .inl (by simpa using hhyphen)
      · simp at hhyphen
    · exact .inr ⟨c, by simp, rfl⟩
    · rcases ih hrest with rfl | ⟨e, he, rfl⟩
      · exact .inl rfl
      · exact .inr ⟨e, by simp [he], rfl⟩

theorem isName_iff {name : String} :
    isName name = true ↔ name.toList ≠ [] ∧ ∀ c ∈ name.toList, isNameChar c = true := by
  simp [isName]

theorem isNameChar_of_mem_kebab {name : String} (hname : isName name = true) {c : Char}
    (h : c ∈ (kebab name).toList) : isNameChar c = true := by
  rw [toList_kebab] at h
  rcases mem_kebabAfter h with rfl | ⟨d, hd, rfl⟩
  · decide
  · exact isNameChar_toLower ((isName_iff.1 hname).2 d hd)

/-- A name remains one in lower case with hyphens. -/
theorem isName_kebab {name : String} (hname : isName name = true) : isName (kebab name) = true := by
  obtain ⟨c, rest, hcons⟩ := List.exists_cons_of_ne_nil (isName_iff.1 hname).1
  refine isName_iff.2 ⟨?_, fun c hc => isNameChar_of_mem_kebab hname hc⟩
  rw [toList_kebab, hcons]
  simp [kebabAfter]

/-- A proper name in front keeps an attribute's name proper. -/
theorem isName_append_kebab {front name : String} (hfront : isName front = true)
    (hname : isName name = true) : isName (front ++ kebab name) = true := by
  obtain ⟨hne, hall⟩ := isName_iff.1 hfront
  rw [isName_iff, String.toList_append]
  refine ⟨fun hnil => hne (List.append_eq_nil_iff.1 hnil).1, fun c hc => ?_⟩
  rcases List.mem_append.1 hc with hc | hc
  · exact hall c hc
  · exact isNameChar_of_mem_kebab hname hc

end UiTemplate.Html
