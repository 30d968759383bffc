import Mathlib.Data.List.ReduceOption
import UiTemplate.Proofs.Html.Distinct

/-!
The words of a name. A name is written in lower case with a hyphen in front of every
capital that begins a word, and whether one does can be seen from its two neighbours. The
hyphens are said apart from the characters of the name here, so that it can be said what
the name is without them: nothing of it is lost but the difference between capitals and
small letters. A name that has been written once has no capitals any more and stays as it
is. What was a proper name is one still, so no attribute for a prop is left out of a tag.
-/

namespace UiTemplate.Html

/-- Whether a word begins with the character between two parts of a name. It is a capital
behind a small letter or a digit, or a capital between another one and a small letter. -/
def BeginsWord (front : List Char) (c : Char) (back : List Char) : Prop :=
  c.isUpper = true ∧ ∃ p, front.getLast? = some p ∧
    (p.isLower = true ∨ p.isDigit = true ∨
      p.isUpper = true ∧ ∃ n, back.head? = some n ∧ n.isLower = true)

/-- A text with a hyphen in front of every character with a mark. These hyphens are left
open, so that they can be told from those of the text. -/
def hyphenated (marks : List Bool) (text : List Char) : List (Option Char) :=
  (marks.zip text).flatMap fun (mark, c) => if mark then [none, some c] else [some c]

/-- The text with its hyphens written out. -/
def spelled (text : List (Option Char)) : List Char :=
  text.map fun c => c.getD '-'

/-- A mark for each of the characters behind `previous` that begins a word. -/
def wordMarks (previous : Option Char) : List Char → List Bool
  | [] => []
  | c :: rest => (c.isUpper && startsWord previous rest.head?) :: wordMarks (some c) rest

variable {previous next : Option Char} {chars : List Char} {c : Char}

theorem length_wordMarks (previous : Option Char) (chars : List Char) :
    (wordMarks previous chars).length = chars.length := by
  induction chars generalizing previous with
  | nil => rfl
  | cons c rest ih => rw [wordMarks, List.length_cons, List.length_cons, ih]

theorem startsWord_eq_true_iff : startsWord previous next = true ↔
    ∃ p, previous = some p ∧ (p.isLower = true ∨ p.isDigit = true ∨
      p.isUpper = true ∧ ∃ n, next = some n ∧ n.isLower = true) := by
  cases previous with
  | none => exact ⟨nofun, nofun⟩
  | some p =>
    have hnext : next.any Char.isLower = true ↔ ∃ n, next = some n ∧ n.isLower = true := by
      cases next with
      | none => simp
      | some n => simp
    simp only [startsWord, Option.some.injEq, exists_eq_left', ← hnext]
    by_cases hsmall : (p.isLower || p.isDigit) = true
    · rw [if_pos hsmall]
      rw [Bool.or_eq_true] at hsmall
      exact iff_of_true rfl (hsmall.imp_right .inl)
    · rw [if_neg hsmall]
      rw [Bool.or_eq_true, not_or] at hsmall
      rw [or_iff_right hsmall.1, or_iff_right hsmall.2]
      by_cases hupper : p.isUpper = true
      · rw [if_pos hupper]
        exact (and_iff_right hupper).symm
      · rw [if_neg hupper]
        exact iff_of_false nofun fun h => hupper h.1

/-- The mark of a character is set by what stands on its two sides. -/
theorem getElem?_wordMarks (previous : Option Char) (front : List Char) (c : Char)
    (back : List Char) : (wordMarks previous (front ++ c :: back))[front.length]? =
      some (c.isUpper && startsWord (front.getLast?.or previous) back.head?) := by
  induction front generalizing previous with
  | nil => rfl
  | cons d front ih =>
    rw [List.cons_append, wordMarks, List.length_cons, List.getElem?_cons_succ, ih]
    -- What stands before `c` is the last of `front`, and `d` only if there is no other.
    cases front with
    | nil => rfl
    | cons e front => rfl

/-- A mark can be told from the characters on either side of its place. -/
theorem marked_iff_beginsWord (front : List Char) (c : Char) (back : List Char) :
    (wordMarks none (front ++ c :: back))[front.length]? = some true ↔
      BeginsWord front c back := by
  rw [getElem?_wordMarks, Option.some.injEq, Bool.and_eq_true, Option.or_none,
    startsWord_eq_true_iff]
  rfl

/-- The loop spells the lower-case characters out, with a hyphen at each mark. -/
theorem kebabAfter_eq_spelled (previous : Option Char) (chars : List Char) :
    kebabAfter previous chars =
      spelled (hyphenated (wordMarks previous chars) (chars.map Char.toLower)) := by
  induction chars generalizing previous with
  | nil => rfl
  | cons c rest ih =>
    simp only [kebabAfter, wordMarks, hyphenated, spelled, List.map_cons, List.zip_cons_cons,
      List.flatMap_cons, List.map_append]
    rw [ih]
    split
    · rfl
    · rfl

/-- Without the hyphens there is the text again. -/
theorem reduceOption_hyphenated {marks : List Bool} {text : List Char}
    (h : marks.length = text.length) : (hyphenated marks text).reduceOption = text := by
  induction text generalizing marks with
  | nil =>
    rw [hyphenated, List.zip_nil_right]
    rfl
  | cons c text ih =>
    cases marks with
    | nil => cases h
    | cons mark marks =>
      have hrest := ih (Nat.succ.inj h)
      cases mark with
      | true => exact congrArg (c :: ·) hrest
      | false => exact congrArg (c :: ·) hrest

theorem not_isUpper_of_mem_kebab {name : String} (h : c ∈ (kebab name).toList) :
    c.isUpper = false := by
  rw [toList_kebab] at h
  rcases mem_kebabAfter h with rfl | ⟨d, -, rfl⟩
  · rfl
  · exact isUpper_toLower d

theorem kebabAfter_of_not_isUpper (h : ∀ c ∈ chars, c.isUpper = false) :
    kebabAfter previous chars = chars := by
  induction chars generalizing previous with
  | nil => rfl
  | cons c rest ih =>
    obtain ⟨hc, hrest⟩ := List.forall_mem_cons.1 h
    rw [kebabAfter, ih hrest, toLower_of_not_isUpper hc, hc]
    rfl

/-- What is in lower case has no more words to tell apart. -/
theorem kebab_kebab (name : String) : kebab (kebab name) = kebab name := by
  apply String.toList_injective
  rw [toList_kebab, kebabAfter_of_not_isUpper fun c => not_isUpper_of_mem_kebab]

/-- A name is written with its ASCII capitals in lower case and one hyphen more in front of
each character that begins a word; without these hyphens it is the name in lower case. No
capital is left, and writing it again changes nothing. A proper name stays one. So every
attribute for a prop has a proper name, and those of an element of a built-in type are all
in its tag. -/
theorem kebab_by_words :
    (∀ name, (∀ c ∈ (kebab name).toList, c.isUpper = false) ∧ kebab (kebab name) = kebab name ∧
      (∃ marks written, marks.length = name.toList.length ∧
        written = hyphenated marks (name.toList.map Char.toLower) ∧
        (kebab name).toList = spelled written ∧
        written.reduceOption = name.toList.map Char.toLower ∧
        ∀ front c back, name.toList = front ++ c :: back →
          (marks[front.length]? = some true ↔ BeginsWord front c back)) ∧
      (isName name = true → isName (kebab name) = true)) ∧
    (∀ tag prop attr, propAttribute? tag prop = some attr → isName attr.name = true) ∧
    ∀ type constructor, primitives.get? type = some constructor → ∀ props content,
      ∃ rest, Reader.opening? (constructor props content).render.toList =
        some (tagOf type, (constructor props content).attributes, rest) := by
  refine ⟨fun name => ?_, fun tag prop attr h => isName_name_of_propAttribute? h,
    fun type constructor hget => opening?_render_of_get? hget⟩
  have hlength : (wordMarks none name.toList).length = (name.toList.map Char.toLower).length := by
    rw [length_wordMarks, List.length_map]
  refine ⟨fun c => not_isUpper_of_mem_kebab, kebab_kebab name, ?_, isName_kebab⟩
  refine ⟨wordMarks none name.toList, _, length_wordMarks none name.toList, rfl, ?_,
    reduceOption_hyphenated hlength, ?_⟩
  · rw [toList_kebab, kebabAfter_eq_spelled]
  · intro front c back hname
    rw [hname]
    exact marked_iff_beginsWord front c back

/-- A name with a run of capitals, the last of which begins the next word. -/
theorem kebab_by_words_capitals :
    isName "HTMLParserV2" = true ∧ kebab "HTMLParserV2" = "html-parser-v2" ∧
      kebab "html-parser-v2" = "html-parser-v2" ∧ isName "html-parser-v2" = true ∧
      (∃ marks : List Bool, marks[4]? = some true ∧
        spelled (hyphenated marks "htmlparserv2".toList) = "html-parser-v2".toList) ∧
      propAttribute? "div" ("HTMLParserV2", .bool true) = some ⟨"data-html-parser-v2", none⟩ ∧
      isName "data-html-parser-v2" = true ∧ primitives.get? "View" = some (element "div") ∧
      ∃ rest, Reader.opening? (element "div" [("HTMLParserV2", .bool true)] .empty).render.toList =
        some ("div", [⟨"data-html-parser-v2", none⟩], rest) := by
  have hname : isName "HTMLParserV2" = true := by decide
  have hkebab : kebab "HTMLParserV2" = "html-parser-v2" := by decide
  have hattr : propAttribute? "div" ("HTMLParserV2", .bool true) =
      some ⟨"data-html-parser-v2", none⟩ := by decide
  have hget : primitives.get? "View" = some (element "div") := rfl
  have hbegins : BeginsWord "HTML".toList 'P' "arserV2".toList :=
    ⟨by decide, 'L', by decide, .inr (.inr ⟨by decide, 'a', by decide, by decide⟩)⟩
  obtain ⟨hnames, hproper, htags⟩ := kebab_by_words
  obtain ⟨-, hagain, ⟨marks, written, -, rfl, hwritten, -, hmarks⟩, hstays⟩ :=
    hnames "HTMLParserV2"
  rw [hkebab] at hagain hwritten hstays
  refine ⟨hname, hkebab, hagain, hstays hname, ⟨marks, ?_, hwritten.symm⟩, hattr, ?_, hget, ?_⟩
  · exact (hmarks "HTML".toList 'P' "arserV2".toList rfl).2 hbegins
  · exact hproper _ _ _ hattr
  · exact htags "View" _ hget [("HTMLParserV2", .bool true)] .empty

end UiTemplate.Html
