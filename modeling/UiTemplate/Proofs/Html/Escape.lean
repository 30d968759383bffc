import UiTemplate.Html.Element

/-!
Escaping as one map over the characters of a text. The replacements are made one
after the other over the whole text, so their order matters: an ampersand that
one of them writes must not be seen by another. It is shown here that nothing of
the kind happens, that the result has no character with a meaning in markup
except the ampersands of its entities, and that the entities say which
characters there were.
-/

namespace UiTemplate.Html

/-- What a character is written as in markup. -/
def entity (c : Char) : List Char :=
  if c = '&' then "&amp;".toList
  else if c = '<' then "&lt;".toList
  else if c = '>' then "&gt;".toList
  else if c = '"' then "&quot;".toList
  else if c = '\'' then "&#39;".toList
  else [c]

/-- The character that a text names after an ampersand, and what follows the
name. -/
def named? : List Char → Option (Char × List Char)
  | 'a' :: 'm' :: 'p' :: ';' :: rest => some ('&', rest)
  | 'l' :: 't' :: ';' :: rest => some ('<', rest)
  | 'g' :: 't' :: ';' :: rest => some ('>', rest)
  | 'q' :: 'u' :: 'o' :: 't' :: ';' :: rest => some ('"', rest)
  | '#' :: '3' :: '9' :: ';' :: rest => some ('\'', rest)
  | _ => none

theorem length_le_of_named? {text rest : List Char} {c : Char}
    (h : named? text = some (c, rest)) : rest.length ≤ text.length := by
  unfold named? at h
  split at h
  all_goals cases h
  all_goals
    simp only [List.length_cons]
    omega

/-- The text that was written with entities. An ampersand that does not begin
one of the five stands for itself. -/
def unescape : List Char → List Char
  | [] => []
  | c :: text =>
    if c = '&' then
      match _h : named? text with
      | some (d, rest) => d :: unescape rest
      | none => c :: unescape text
    else c :: unescape text
termination_by text => text.length
decreasing_by
  · exact Nat.lt_succ_of_le (length_le_of_named? _h)
  · exact Nat.lt_succ_self _
  · exact Nat.lt_succ_self _

theorem replace_append (c : Char) (replacement left right : List Char) :
    Text.replace c replacement (left ++ right) =
      Text.replace c replacement left ++ Text.replace c replacement right := by
  simp [Text.replace]

theorem replace_singleton_of_ne {c d : Char} (h : d ≠ c) (replacement : List Char) :
    Text.replace c replacement [d] = [d] := by
  simp [Text.replace, h]

/-- Escaping goes character by character, so it can be done in pieces. -/
theorem escapeChars_append (left right : List Char) :
    escapeChars (left ++ right) = escapeChars left ++ escapeChars right := by
  simp only [escapeChars, replace_append]

theorem escapeChars_singleton (c : Char) : escapeChars [c] = entity c := by
  by_cases hamp : c = '&'
  · subst c; rfl
  by_cases hlt : c = '<'
  · subst c; rfl
  by_cases hgt : c = '>'
  · subst c; rfl
  by_cases hquot : c = '"'
  · subst c; rfl
  by_cases hapos : c = '\''
  · subst c; rfl
  rw [entity, if_neg hamp, if_neg hlt, if_neg hgt, if_neg hquot, if_neg hapos]
  simp only [escapeChars, replace_singleton_of_ne hamp, replace_singleton_of_ne hlt,
    replace_singleton_of_ne hgt, replace_singleton_of_ne hquot, replace_singleton_of_ne hapos]

/-- No replacement touches what another one has written. -/
theorem escapeChars_eq_flatMap (text : List Char) : escapeChars text = text.flatMap entity := by
  induction text with
  | nil => rfl
  | cons c text ih =>
    calc
      escapeChars (c :: text) = escapeChars [c] ++ escapeChars text := escapeChars_append [c] text
      _ = entity c ++ text.flatMap entity := by rw [escapeChars_singleton, ih]
      _ = (c :: text).flatMap entity := rfl

/-- Whether a character is none of those that begin and end things in markup. -/
def isPlain (c : Char) : Bool :=
  c != '<' && c != '>' && c != '"' && c != '\''

theorem isPlain_iff {c : Char} :
    isPlain c = true ↔ c ≠ '<' ∧ c ≠ '>' ∧ c ≠ '"' ∧ c ≠ '\'' := by
  simp [isPlain, and_assoc]

theorem all_isPlain_entity (c : Char) : (entity c).all isPlain = true := by
  unfold entity
  repeat' split
  case isFalse hamp hlt hgt hquot hapos =>
    rw [List.all_cons, List.all_nil, Bool.and_true, isPlain_iff]
    exact ⟨hlt, hgt, hquot, hapos⟩
  all_goals rfl

/-- Escaped text cannot open a tag, close one, or end an attribute's value. -/
theorem mem_escapeChars {text : List Char} {d : Char} (h : d ∈ escapeChars text) :
    d ≠ '<' ∧ d ≠ '>' ∧ d ≠ '"' ∧ d ≠ '\'' := by
  rw [escapeChars_eq_flatMap, List.mem_flatMap] at h
  obtain ⟨c, _, hd⟩ := h
  exact isPlain_iff.1 (List.all_eq_true.1 (all_isPlain_entity c) d hd)

theorem entity_ne_nil (c : Char) : entity c ≠ [] := by
  unfold entity
  repeat' split
  all_goals simp

theorem escapeChars_eq_nil_iff {text : List Char} : escapeChars text = [] ↔ text = [] := by
  rw [escapeChars_eq_flatMap, List.flatMap_eq_nil_iff]
  constructor
  · intro h
    cases text with
    | nil => rfl
    | cons c text => exact absurd (h c (by simp)) (entity_ne_nil c)
  · rintro rfl
    simp

theorem unescape_cons {c : Char} (h : c ≠ '&') (rest : List Char) :
    unescape (c :: rest) = c :: unescape rest := by
  rw [unescape, if_neg h]

theorem unescape_of_named? {text rest : List Char} {c : Char}
    (h : named? text = some (c, rest)) : unescape ('&' :: text) = c :: unescape rest := by
  rw [unescape, if_pos rfl]
  split
  · next heq =>
    rw [h] at heq
    cases heq
    rfl
  · next heq =>
    rw [h] at heq
    cases heq

/-- An entity is read back as the character it was written for, whatever
follows it. -/
theorem unescape_entity_append (c : Char) (rest : List Char) :
    unescape (entity c ++ rest) = c :: unescape rest := by
  unfold entity
  repeat' split
  case isFalse hamp _ _ _ _ => exact unescape_cons hamp rest
  all_goals
    subst c
    exact unescape_of_named? rfl

/-- Decoding gives back what was escaped. -/
theorem unescape_escapeChars (text : List Char) : unescape (escapeChars text) = text := by
  rw [escapeChars_eq_flatMap]
  induction text with
  | nil => rw [List.flatMap_nil, unescape]
  | cons c text ih => rw [List.flatMap_cons, unescape_entity_append, ih]

def special : List Char :=
  ['&', '<', '>', '"', '\'']

/-- Entities end before another one can begin. -/
theorem entity_of_special {c : Char} (h : c ∈ special) :
    ∃ name, entity c = '&' :: name ∧ '&' ∉ name := by
  simp only [special, List.mem_cons, List.not_mem_nil, or_false] at h
  rcases h with rfl | rfl | rfl | rfl | rfl
  · exact ⟨"amp;".toList, rfl, by decide⟩
  · exact ⟨"lt;".toList, rfl, by decide⟩
  · exact ⟨"gt;".toList, rfl, by decide⟩
  · exact ⟨"quot;".toList, rfl, by decide⟩
  · exact ⟨"#39;".toList, rfl, by decide⟩

theorem entity_of_not_special {c : Char} (h : c ∉ special) : entity c = [c] := by
  simp only [special, List.mem_cons, List.not_mem_nil, or_false, not_or] at h
  obtain ⟨hamp, hlt, hgt, hquot, hapos⟩ := h
  rw [entity, if_neg hamp, if_neg hlt, if_neg hgt, if_neg hquot, if_neg hapos]

/-- An ampersand in an entity is its first character, and it stands for a special one. -/
theorem special_of_entity_eq {c : Char} {before rest : List Char}
    (h : entity c = before ++ '&' :: rest) : c ∈ special ∧ before = [] := by
  by_cases hspecial : c ∈ special
  · obtain ⟨name, hentity, hname⟩ := entity_of_special hspecial
    rw [hentity] at h
    cases before with
    | nil => exact ⟨hspecial, rfl⟩
    | cons d before =>
      obtain ⟨-, hrest⟩ := List.cons.inj h
      exact absurd (hrest ▸ List.mem_append_right before List.mem_cons_self) hname
  · rw [entity_of_not_special hspecial] at h
    have hamp : '&' ∈ [c] := h ▸ List.mem_append_right before List.mem_cons_self
    rw [List.mem_singleton] at hamp
    exact absurd (hamp ▸ List.mem_cons_self) hspecial

/-- An ampersand in escaped text is the beginning of an entity. -/
theorem entity_of_ampersand {text before rest : List Char}
    (h : escapeChars text = before ++ '&' :: rest) : ∃ c ∈ special, entity c <+: '&' :: rest := by
  rw [escapeChars_eq_flatMap] at h
  induction text generalizing before with
  | nil => simp at h
  | cons c text ih =>
    rw [List.flatMap_cons, List.append_eq_append_iff] at h
    -- The ampersand is behind what `c` is written as, or a part of it.
    rcases h with ⟨middle, -, htext⟩ | ⟨middle, hentity, hrest⟩
    · exact ih htext
    · cases middle with
      | nil =>
        have hnext : text.flatMap entity = [] ++ '&' :: rest := hrest.symm
        exact ih hnext
      | cons d middle =>
        obtain ⟨rfl, -⟩ := List.cons.inj hrest
        obtain ⟨hspecial, rfl⟩ := special_of_entity_eq hentity
        rw [List.nil_append] at hentity
        refine ⟨c, hspecial, ?_⟩
        rw [hentity, hrest]
        exact List.prefix_append _ _

/-- Escaping puts every character in place on its own, whatever stands around it: the five
replacements are one map. The result has none of the characters that begin and end things
in markup, and an ampersand only where one of the five entities begins; the entities say
which text it was, and texts are escaped a part at a time. -/
theorem escape_by_characters (text other : String) :
    escape text = String.ofList (text.toList.flatMap entity) ∧
      (∀ c ∈ (escape text).toList, c ≠ '<' ∧ c ≠ '>' ∧ c ≠ '"' ∧ c ≠ '\'') ∧
      (∀ before rest, (escape text).toList = before ++ '&' :: rest →
        ∃ c ∈ special, entity c <+: '&' :: rest) ∧
      String.ofList (unescape (escape text).toList) = text ∧
      escape (text ++ other) = escape text ++ escape other := by
  have hchars : (escape text).toList = escapeChars text.toList := String.toList_ofList
  rw [hchars]
  refine ⟨?_, fun c hc => mem_escapeChars hc, fun before rest => entity_of_ampersand, ?_, ?_⟩
  · rw [escape, escapeChars_eq_flatMap]
  · rw [unescape_escapeChars, String.ofList_toList]
  · rw [escape, String.toList_append, escapeChars_append, String.ofList_append]
    rfl

/-- A text that looks like an entity stays apart from the one that it looks like. -/
theorem escape_by_characters_lookalike :
    escape ("&lt;" ++ "<'") = "&amp;lt;&lt;&#39;" ∧
      String.ofList (unescape "&amp;lt;&lt;&#39;".toList) = "&lt;<'" ∧
      (∃ c ∈ special, entity c <+: "&lt;&#39;".toList) ∧
      '<' ∉ "&amp;lt;&lt;&#39;".toList := by
  have hescape : escape "&lt;<'" = "&amp;lt;&lt;&#39;" := by decide
  obtain ⟨-, hplain, hentity, hunescape, -⟩ := escape_by_characters "&lt;<'" ""
  rw [hescape] at hplain hentity hunescape
  refine ⟨hescape, hunescape, hentity "&amp;lt;".toList "lt;&#39;".toList rfl, ?_⟩
  exact fun hmem => (hplain '<' hmem).1 rfl

end UiTemplate.Html
