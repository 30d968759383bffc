import UiTemplate.Expression
import UiTemplate.Proofs.Text.Cut

/-!
How the placeholders of a text are filled. A text without a complete placeholder
stays as it is. Any other text has one first placeholder, and there is only one
way to take the text apart around it: what stands before keeps as it is, what is
shown for the path comes in its place, and filling goes on with what follows. So
a text that was filled in is never looked at again, whatever it looks like.
-/

namespace UiTemplate

/-- What stands in a text for a value that was looked up. -/
inductive Shows : Option Value → List Char → Prop where
  | string (s : String) : Shows (some (.string s)) s.toList
  | number (n : Number) : Shows (some (.number n)) n.textChars
  | truth (b : Bool) : Shows (some (.bool b)) (if b then "true" else "false").toList
  | nothing {found : Option Value} (hstring : ∀ s, found ≠ some (.string s))
    (hnumber : ∀ n, found ≠ some (.number n)) (htruth : ∀ b, found ≠ some (.bool b)) :
    Shows found []

theorem shows_text? (found : Option Value) :
    Shows found ((found.bind Value.text?).getD "").toList := by
  cases found with
  | none => exact .nothing (by simp) (by simp) (by simp)
  | some value =>
    cases value with
    | string s => exact .string s
    | number n => simpa [Value.text?] using Shows.number n
    | bool b =>
      cases b with
      | true => exact .truth true
      | false => exact .truth false
    | null => exact .nothing (by simp) (by simp) (by simp)
    | array items => exact .nothing (by simp) (by simp) (by simp)
    | object members => exact .nothing (by simp) (by simp) (by simp)
    | function callable => exact .nothing (by simp) (by simp) (by simp)
    | invocation call => exact .nothing (by simp) (by simp) (by simp)

namespace TextPart

/-- An opening comes somewhere before a closing brace. -/
def HasPlaceholder (text : List Char) : Prop :=
  ∃ before path rest, text = before ++ placeholderOpen ++ (path ++ placeholderClose ++ rest)

/-- A text taken apart at a placeholder that no opening comes before and whose
path ends at the first closing brace. -/
structure IsSplit (text before path rest : List Char) : Prop where
  eq_append : text = before ++ placeholderOpen ++ (path ++ placeholderClose ++ rest)
  not_open : ¬ placeholderOpen <:+: before
  not_close : '\x7d' ∉ path

variable {text before path rest : List Char}

theorem isFirstCut_open (h : ¬ placeholderOpen <:+: before) (rest : List Char) :
    Text.IsFirstCut placeholderOpen (before ++ placeholderOpen ++ rest) before rest :=
  Text.isFirstCut_append (c := '$') (by decide) h rest

theorem isFirstCut_close (h : '\x7d' ∉ path) (rest : List Char) :
    Text.IsFirstCut placeholderClose (path ++ placeholderClose ++ rest) path rest :=
  Text.isFirstCut_append (by simp) (by rwa [Text.singleton_infix_iff]) rest

/-- The scan finds exactly the split at the first placeholder. -/
theorem first?_eq_some_iff :
    first? text = some (before, path, rest) ↔ IsSplit text before path rest := by
  constructor
  · intro h
    rw [first?] at h
    split at h
    · cases h
    · next body hopen =>
      split at h
      · cases h
      · next hclose =>
        cases h
        have hbefore := Text.isFirstCut_of_cut? hopen
        have hpath := Text.isFirstCut_of_cut? hclose
        refine ⟨?_, hbefore.not_infix (by decide), ?_⟩
        · rw [hbefore.eq_append, hpath.eq_append]
        · rw [← Text.singleton_infix_iff]
          exact hpath.not_infix (by decide)
  · intro h
    have hopen := isFirstCut_open h.not_open (path ++ placeholderClose ++ rest)
    have hclose := isFirstCut_close h.not_close rest
    simp only [first?, h.eq_append, Text.cut?_eq_some_iff.2 hopen,
      Text.cut?_eq_some_iff.2 hclose]

/-- A cut at the first opening leaves over everything that follows any opening. -/
theorem suffix_of_isFirstCut {marker front back : List Char}
    (h : Text.IsFirstCut marker text before rest) (htext : text = front ++ marker ++ back) :
    back <:+ rest := by
  have hle := h.first front back htext
  have hlength : (before ++ marker ++ rest).length = (front ++ marker ++ back).length := by
    rw [← h.eq_append, htext]
  have hrest : rest <:+ text := ⟨before ++ marker, h.eq_append.symm⟩
  have hback : back <:+ text := ⟨front ++ marker, htext.symm⟩
  apply List.suffix_of_suffix_length_le hback hrest
  simp only [List.length_append] at hlength
  omega

/-- The scan finds nothing only if there is no placeholder anywhere in the text. -/
theorem first?_eq_none_iff : first? text = none ↔ ¬ HasPlaceholder text := by
  constructor
  · rintro hnone ⟨before, path, rest, htext⟩
    have hopen : placeholderOpen <:+: text := ⟨before, _, htext.symm⟩
    rw [first?] at hnone
    split at hnone
    · next hcut => exact Text.cut?_eq_none_iff.1 hcut hopen
    · next body hcut =>
      split at hnone
      · next hclose =>
        have hbody : path ++ placeholderClose ++ rest <:+ body :=
          suffix_of_isFirstCut (Text.isFirstCut_of_cut? hcut) htext
        have hinside : placeholderClose <:+: path ++ placeholderClose ++ rest := ⟨path, rest, rfl⟩
        exact Text.cut?_eq_none_iff.1 hclose (hinside.trans hbody.isInfix)
      · cases hnone
  · intro hnot
    rw [Option.eq_none_iff_forall_ne_some]
    rintro ⟨before, path, rest⟩ hfirst
    exact hnot ⟨before, path, rest, (first?_eq_some_iff.1 hfirst).eq_append⟩

/-- The rest is shorter than the text, so interpolation comes to an end. -/
theorem IsSplit.length_lt (h : IsSplit text before path rest) : rest.length < text.length :=
  length_lt_of_first? (first?_eq_some_iff.2 h)

/-- There is one way to split a text at its first placeholder. -/
theorem IsSplit.unique {before' path' rest' : List Char} (h : IsSplit text before path rest)
    (h' : IsSplit text before' path' rest') : before' = before ∧ path' = path ∧ rest' = rest := by
  have hsome := first?_eq_some_iff.2 h
  rw [first?_eq_some_iff.2 h'] at hsome
  cases hsome
  exact ⟨rfl, rfl, rfl⟩

theorem exists_isSplit (h : HasPlaceholder text) :
    ∃ before path rest, IsSplit text before path rest := by
  cases hfirst : first? text with
  | none => exact absurd h (first?_eq_none_iff.1 hfirst)
  | some parts => exact ⟨_, _, _, first?_eq_some_iff.1 hfirst⟩

theorem parse_of_not_hasPlaceholder (h : ¬ HasPlaceholder text) : parse text = [.literal text] := by
  rw [parse]
  split
  · rfl
  · next heq => rw [first?_eq_none_iff.2 h] at heq; cases heq

theorem parse_of_isSplit (h : IsSplit text before path rest) :
    parse text = .literal before :: .placeholder (String.ofList path) :: parse rest := by
  rw [parse]
  split
  · next heq => rw [first?_eq_some_iff.2 h] at heq; cases heq
  · next heq =>
    rw [first?_eq_some_iff.2 h] at heq
    cases heq
    rfl

end TextPart

open TextPart

variable {text before path rest : List Char}

theorem interpolate_of_not_hasPlaceholder (context : Context) (h : ¬ HasPlaceholder text) :
    interpolate context text = text := by
  rw [interpolate, parse_of_not_hasPlaceholder h]
  simp [fill]

/-- The text in front is kept, the placeholder gives way to what its path shows, and the
rest is done in turn. -/
theorem interpolate_of_isSplit (context : Context) (h : IsSplit text before path rest) :
    interpolate context text =
      before ++ (context.shown (String.ofList path)).toList ++ interpolate context rest := by
  rw [interpolate, parse_of_isSplit h, interpolate]
  simp [fill]

/-- Either a text has no complete placeholder and stays as it is, or it has
exactly one split at its first placeholder, and what is shown for the path goes
between the text before and the filled rest. -/
theorem interpolate_placeholders (context : Context) :
    (∀ text, ¬ HasPlaceholder text → interpolate context text = text) ∧
    (∀ before path rest, ¬ placeholderOpen <:+: before → '\x7d' ∉ path →
      ∃ shown, Shows (context.get? (String.ofList path)) shown ∧
        interpolate context (before ++ placeholderOpen ++ (path ++ placeholderClose ++ rest)) =
          before ++ shown ++ interpolate context rest) ∧
    ∀ text,
      (¬ HasPlaceholder text ∧ ¬ ∃ before path rest, IsSplit text before path rest) ∨
      (HasPlaceholder text ∧ ∃ before path rest, IsSplit text before path rest ∧
        rest.length < text.length ∧ ∀ before' path' rest', IsSplit text before' path' rest' →
          before' = before ∧ path' = path ∧ rest' = rest) := by
  refine ⟨fun text h => interpolate_of_not_hasPlaceholder context h, ?_, ?_⟩
  · intro before path rest hbefore hpath
    exact ⟨_, shows_text? _, interpolate_of_isSplit context ⟨rfl, hbefore, hpath⟩⟩
  · intro text
    by_cases h : HasPlaceholder text
    · obtain ⟨before, path, rest, hsplit⟩ := exists_isSplit h
      refine .inr ⟨h, before, path, rest, hsplit, hsplit.length_lt, ?_⟩
      intro before' path' rest' hsplit'
      exact hsplit.unique hsplit'
    · refine .inl ⟨h, ?_⟩
      rintro ⟨before, path, rest, hsplit⟩
      exact h ⟨before, path, rest, hsplit.eq_append⟩

/-- A name that closes a placeholder and then looks like one. -/
def mirror : Context :=
  ⟨[("name", .string "\x7d$\x7btext::name\x7d")]⟩

/-- Neither the name that is put in nor what it forms with the text behind it is
read again. -/
theorem interpolate_placeholders_mirror :
    ¬ HasPlaceholder "$\x7btext::name".toList ∧
      ¬ placeholderOpen <:+: "Dear ".toList ∧ '\x7d' ∉ "name".toList ∧
      interpolate mirror ("Dear ".toList ++ placeholderOpen ++
          ("name".toList ++ placeholderClose ++ "$\x7btext::name".toList)) =
        "Dear \x7d$\x7btext::name\x7d$\x7btext::name".toList := by
  have hrest : ¬ HasPlaceholder "$\x7btext::name".toList := first?_eq_none_iff.1 rfl
  have hbefore : ¬ placeholderOpen <:+: "Dear ".toList := Text.cut?_eq_none_iff.1 rfl
  have hpath : '\x7d' ∉ "name".toList := by decide
  obtain ⟨hplain, hfilled, _⟩ := interpolate_placeholders mirror
  obtain ⟨shown, hshows, hresult⟩ :=
    hfilled "Dear ".toList "name".toList "$\x7btext::name".toList hbefore hpath
  have hget : mirror.get? (String.ofList "name".toList) =
      some (.string "\x7d$\x7btext::name\x7d") := rfl
  rw [hget] at hshows
  rw [hplain _ hrest] at hresult
  refine ⟨hrest, hbefore, hpath, ?_⟩
  cases hshows with
  | string _ => exact hresult
  | nothing hstring _ _ => exact absurd rfl (hstring _)

end UiTemplate
