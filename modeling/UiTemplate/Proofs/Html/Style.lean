import Mathlib.Algebra.GroupWithZero.Nat
import UiTemplate.Proofs.Html.Distinct
import UiTemplate.Proofs.Number.Text
import UiTemplate.Proofs.Text.Split

/-!
What the style of an element declares. The value of a style attribute is read as the
declarations between its semicolons, each with a name in front of its first colon.

`Declares` is what a style asks for: one declaration for each entry that has a proper
name and a text. Names are checked before they are written, so whatever stands in an
entry, its own declaration is there under its own name. Texts are not checked. One with
a semicolon in it ends its declaration there, and what follows is read as further
declarations (`written`). Nothing else is lost or added, so exactly those styles are
read back in which no string has a semicolon.
-/

namespace UiTemplate.Html

/-- The name and the text of a declaration. Blanks in front of the name and a blank in
front of the text do not belong to them. -/
def readDeclaration? (piece : List Char) : Option (String × String) :=
  (Text.cut? [':'] (Text.trimStart piece)).map fun (name, rest) =>
    (String.ofList name, String.ofList ((Text.after? [' '] rest).getD rest))

def readDeclarations (css : String) : List (Option (String × String)) :=
  (Text.splitOn ';' css.toList).map readDeclaration?

/-- The texts of style entries. A number is a length unless the entry has no unit. -/
inductive StyleText (name : String) : Value → String → Prop where
  | string (s : String) : StyleText name (.string s) s
  | count (n : Number) (hunitless : name ∈ unitlessStyles) :
      StyleText name (.number n) (String.ofList n.textChars)
  | length (n : Number) (hlength : name ∉ unitlessStyles) :
      StyleText name (.number n) (String.ofList n.textChars ++ "px")

/-- The declarations that a style asks for, in the order of its entries. -/
inductive Declares : List (String × Value) → List (String × String) → Prop where
  | nil : Declares [] []
  | declared {name text : String} {value : Value} {style : List (String × Value)}
      {entries : List (String × String)} (hname : isName name = true)
      (htext : StyleText name value text) (hrest : Declares style entries) :
      Declares ((name, value) :: style) ((kebab name, text) :: entries)
  | omitted {name : String} {value : Value} {style : List (String × Value)}
      {entries : List (String × String)}
      (hnone : isName name = true → ∀ text, ¬ StyleText name value text)
      (hrest : Declares style entries) : Declares ((name, value) :: style) entries

/-- What is read where a declaration is written: its name with the text up to the first
semicolon, and then whatever the rest of the text says. -/
def written (entry : String × String) : List (Option (String × String)) :=
  match Text.splitOn ';' entry.2.toList with
  | [] => []
  | own :: others => some (entry.1, String.ofList own) :: others.map readDeclaration?

variable {tag name text : String} {value : Value} {style : List (String × Value)}
  {entry : String × String} {entries : List (String × String)} {gap : List Char} {c : Char}

/-! What a style asks for -/

theorem styleText?_eq_some_iff :
    styleText? name value = some text ↔ StyleText name value text := by
  constructor
  · intro h
    cases value with
    | string s =>
      cases h
      exact .string _
    | number n =>
      simp only [styleText?, List.contains_iff_mem] at h
      split at h
      · next hunitless =>
        cases h
        exact .count n hunitless
      · next hlength =>
        cases h
        exact .length n hlength
    | null | bool | array | object | function | invocation => cases h
  · rintro (s | ⟨n, hunitless⟩ | ⟨n, hlength⟩)
    · rfl
    · simp [styleText?, hunitless, Value.text?]
    · simp [styleText?, hlength, Value.text?]

def declarationChars (entry : String × String) : List Char :=
  (entry.1 ++ ": " ++ entry.2).toList

theorem declaration?_of_styleText (hname : isName name = true)
    (htext : StyleText name value text) :
    declaration? (name, value) = some (declarationChars (kebab name, text)) := by
  rw [declaration?, if_pos hname, styleText?_eq_some_iff.2 htext]
  rfl

theorem declaration?_of_forall_not
    (hnone : isName name = true → ∀ text, ¬ StyleText name value text) :
    declaration? (name, value) = none := by
  rw [declaration?]
  split
  · next hname =>
    rw [Option.map_eq_none_iff, Option.eq_none_iff_forall_ne_some]
    exact fun text htext => hnone hname text (styleText?_eq_some_iff.1 htext)
  · rfl

/-- A style's value has one text at most. -/
theorem StyleText.unique {other : String} (h : StyleText name value text)
    (hother : StyleText name value other) : text = other :=
  Option.some.inj ((styleText?_eq_some_iff.2 h).symm.trans (styleText?_eq_some_iff.2 hother))

theorem Declares.unique {others : List (String × String)} (h : Declares style entries)
    (hother : Declares style others) : entries = others := by
  induction h generalizing others with
  | nil =>
    cases hother
    rfl
  | declared hname htext _ ih =>
    cases hother with
    | declared _ hsame hrest => rw [htext.unique hsame, ih hrest]
    | omitted hnone _ => exact absurd htext (hnone hname _)
  | omitted hnone _ ih =>
    cases hother with
    | declared hname htext _ => exact absurd htext (hnone hname _)
    | omitted _ hrest => exact ih hrest

/-- Every style has its declarations, those that have no text left out. -/
theorem exists_declares (style : List (String × Value)) : ∃ entries, Declares style entries := by
  induction style with
  | nil => exact ⟨[], .nil⟩
  | cons entry style ih =>
    obtain ⟨entries, hrest⟩ := ih
    by_cases h : isName entry.1 = true ∧ ∃ text, StyleText entry.1 entry.2 text
    · obtain ⟨hname, text, htext⟩ := h
      exact ⟨_, .declared hname htext hrest⟩
    · exact ⟨entries, .omitted (fun hname text htext => h ⟨hname, text, htext⟩) hrest⟩

/-- The declarations are written in their order. -/
theorem declarations_of_declares (h : Declares style entries) :
    declarations style = entries.map declarationChars := by
  induction h with
  | nil => rfl
  | declared hname htext _ ih =>
    rw [declarations, List.filterMap_cons_some (declaration?_of_styleText hname htext),
      List.map_cons, ← ih]
    rfl
  | omitted hnone _ ih =>
    rw [declarations, List.filterMap_cons_none (declaration?_of_forall_not hnone), ← ih]
    rfl

theorem Declares.isName_names (h : Declares style entries) :
    ∀ entry ∈ entries, isName entry.1 = true := by
  induction h with
  | nil => exact fun entry hentry => absurd hentry List.not_mem_nil
  | declared hname _ _ ih => exact List.forall_mem_cons.2 ⟨isName_kebab hname, ih⟩
  | omitted _ _ ih => exact ih

/-- A style in which no string under a proper name has a semicolon. -/
def KeepsApart (style : List (String × Value)) : Prop :=
  ∀ name s, (name, Value.string s) ∈ style → isName name = true → ';' ∉ s.toList

theorem keepsApart_cons_iff : KeepsApart ((name, value) :: style) ↔
    (∀ s, value = .string s → isName name = true → ';' ∉ s.toList) ∧ KeepsApart style := by
  constructor
  · intro h
    refine ⟨?_, fun name s hmem => h name s (List.mem_cons_of_mem _ hmem)⟩
    rintro s rfl
    exact h name s List.mem_cons_self
  · rintro ⟨hfirst, hrest⟩ other s hmem
    rcases List.mem_cons.1 hmem with heq | hmem
    · cases heq
      exact hfirst s rfl
    · exact hrest other s hmem

/-- Only a string can bring a semicolon into a declaration. -/
theorem StyleText.semicolon_not_mem_iff (h : StyleText name value text) :
    ';' ∉ text.toList ↔ ∀ s, value = .string s → ';' ∉ s.toList := by
  have hnumber : ∀ n : Number, ';' ∉ n.textChars := by
    intro n hmem
    rcases Number.isDigit_or_eq_of_mem_textChars hmem with hdigit | heq | heq
    · exact absurd hdigit (by decide)
    · exact absurd heq (by decide)
    · exact absurd heq (by decide)
  cases h with
  | string s => simp
  | count n => simp [hnumber n]
  | length n => simp [hnumber n]

/-- Only strings bring semicolons into declarations. -/
theorem Declares.keepsApart_iff (h : Declares style entries) :
    KeepsApart style ↔ ∀ entry ∈ entries, ';' ∉ entry.2.toList := by
  induction h with
  | nil => simp [KeepsApart]
  | declared hname htext _ ih =>
    rw [keepsApart_cons_iff, List.forall_mem_cons, ih, htext.semicolon_not_mem_iff]
    simp only [hname, forall_const]
  | omitted hnone _ ih =>
    rw [keepsApart_cons_iff, ih]
    refine and_iff_right ?_
    rintro s rfl hname
    exact absurd (StyleText.string s) (hnone hname s)

/-! What is read from a style attribute -/

theorem isBlank_eq_false (hlow : 32 < c.toNat) (hhigh : c.toNat < 133) :
    Text.isBlank c = false := by
  have hval : c.toNat = c.val.toNat := rfl
  simp only [Text.isBlank, Bool.or_eq_false_iff, Bool.and_eq_false_imp, decide_eq_true_eq,
    decide_eq_false_iff_not, beq_eq_false_iff_ne, ne_eq, UInt32.le_iff_toNat_le,
    ← UInt32.toNat_inj, UInt32.reduceToNat]
  omega

theorem toNat_of_isNameChar (h : isNameChar c = true) : 32 < c.toNat ∧ c.toNat < 133 := by
  rw [isNameChar_iff, isUpper_iff, isLower_iff, isDigit_iff] at h
  rcases h with halphanum | rfl | rfl
  · omega
  · decide
  · decide

/-- Nothing that separates declarations or their parts is in a name. -/
theorem ne_of_isNameChar (h : isNameChar c = true) :
    c ≠ ':' ∧ c ≠ ';' ∧ Text.isBlank c = false := by
  obtain ⟨hlow, hhigh⟩ := toNat_of_isNameChar h
  refine ⟨?_, ?_, isBlank_eq_false hlow hhigh⟩
  · rintro rfl
    exact absurd h (by decide)
  · rintro rfl
    exact absurd h (by decide)

/-- A declaration is read back from where its text ends. -/
theorem readDeclaration?_of_isName (hgap : ∀ c ∈ gap, Text.isBlank c = true)
    (hname : isName name = true) (text : List Char) :
    readDeclaration? (gap ++ (name.toList ++ ':' :: ' ' :: text)) =
      some (name, String.ofList text) := by
  obtain ⟨hne, hall⟩ := isName_iff.1 hname
  have hstart : Reader.EndsRun Text.isBlank (name.toList ++ ':' :: ' ' :: text) := by
    intro c hc
    rw [List.head?_append_of_ne_nil _ hne] at hc
    exact (ne_of_isNameChar (hall c (List.mem_of_head? hc))).2.2
  have hcolon : ':' ∉ name.toList := fun hmem => (ne_of_isNameChar (hall _ hmem)).1 rfl
  rw [readDeclaration?, Text.trimStart, Reader.dropWhile_append_of_endsRun hgap hstart,
    Text.cut?_append_cons hcolon]
  exact congrArg (fun name => some (name, String.ofList text)) String.ofList_toList

/-- What is read where one declaration is written, with blanks in front of it. -/
theorem map_readDeclaration?_splitOn (hgap : ∀ c ∈ gap, Text.isBlank c = true)
    (hname : isName entry.1 = true) :
    (Text.splitOn ';' (gap ++ declarationChars entry)).map readDeclaration? = written entry := by
  obtain ⟨name, text⟩ := entry
  obtain ⟨own, others, hsplit⟩ :=
    List.exists_cons_of_ne_nil (Text.splitOn_ne_nil ';' text.toList)
  have hfront : ';' ∉ gap ++ (name.toList ++ [':', ' ']) := by
    simp only [List.mem_append, List.mem_cons, List.not_mem_nil, not_or]
    refine ⟨fun hmem => absurd (hgap _ hmem) (by decide), ?_, by decide⟩
    exact fun hmem => (ne_of_isNameChar ((isName_iff.1 hname).2 _ hmem)).2.1 rfl
  have hchars : gap ++ declarationChars (name, text) =
      gap ++ (name.toList ++ [':', ' ']) ++ text.toList := by
    simp [declarationChars]
  have hown : gap ++ (name.toList ++ [':', ' ']) ++ own =
      gap ++ (name.toList ++ ':' :: ' ' :: own) := by simp
  rw [hchars, Text.splitOn_append_left hfront hsplit, List.map_cons, hown,
    readDeclaration?_of_isName hgap hname, written, hsplit]

/-- The value of the attribute for a style that asks for these declarations. -/
def cssOf (entries : List (String × String)) : String :=
  String.ofList (Text.join "; ".toList (entries.map declarationChars))

/-- Each declaration is read where it is written, whatever the others are. -/
theorem readDeclarations_cssOf (hne : entries ≠ [])
    (hnames : ∀ entry ∈ entries, isName entry.1 = true) :
    readDeclarations (cssOf entries) = entries.flatMap written := by
  cases entries with
  | nil => exact absurd rfl hne
  | cons first others =>
    obtain ⟨hfirst, hothers⟩ := List.forall_mem_cons.1 hnames
    have hblank : ∀ c ∈ [' '], Text.isBlank c = true := List.forall_mem_singleton.2 rfl
    have hrest : ∀ entry ∈ others,
        (Text.splitOn ';' ([' '] ++ declarationChars entry)).map readDeclaration? = written entry :=
      fun entry hentry => map_readDeclaration?_splitOn hblank (hothers entry hentry)
    have hhead := map_readDeclaration?_splitOn (List.forall_mem_nil _) hfirst
    rw [readDeclarations, cssOf, String.toList_ofList, List.map_cons]
    change List.map readDeclaration? (Text.splitOn ';' (Text.join (';' :: [' ']) _)) = _
    rw [Text.splitOn_join_eq_flatMap, List.map_append, List.map_flatMap, List.flatMap_map,
      List.flatMap_cons, List.flatMap_congr hrest]
    exact congrArg (· ++ _) hhead

theorem length_written (entry : String × String) :
    (written entry).length = entry.2.toList.count ';' + 1 := by
  obtain ⟨own, others, hsplit⟩ :=
    List.exists_cons_of_ne_nil (Text.splitOn_ne_nil ';' entry.2.toList)
  rw [← Text.length_splitOn, written, hsplit, List.length_cons, List.length_map, List.length_cons]

theorem written_of_not_mem (h : ';' ∉ entry.2.toList) : written entry = [some entry] := by
  simp [written, Text.splitOn_of_not_mem h]

/-- Every semicolon in a text makes one declaration more. -/
theorem length_flatMap_written (entries : List (String × String)) :
    (entries.flatMap written).length =
      entries.length + (entries.map fun entry => entry.2.toList.count ';').sum := by
  induction entries with
  | nil => rfl
  | cons entry entries ih =>
    rw [List.flatMap_cons, List.length_append, ih, length_written, List.map_cons, List.sum_cons,
      List.length_cons]
    omega

/-- Every entry is one declaration exactly if no text has a semicolon. -/
theorem flatMap_written_eq_iff :
    entries.flatMap written = entries.map some ↔ ∀ entry ∈ entries, ';' ∉ entry.2.toList := by
  constructor
  · intro h entry hentry
    have hlength := length_flatMap_written entries
    rw [h, List.length_map] at hlength
    have hzero : (entries.map fun entry => entry.2.toList.count ';').sum = 0 := by omega
    exact List.count_eq_zero.1
      (List.sum_eq_zero_iff_forall_eq_nat.1 hzero _ (List.mem_map.2 ⟨entry, hentry, rfl⟩))
  · intro h
    rw [List.map_eq_flatMap]
    exact List.flatMap_congr fun entry hentry => written_of_not_mem (h entry hentry)

/-! The style attribute of an element -/

theorem cssOf_eq_empty_iff : cssOf entries = "" ↔ entries = [] := by
  constructor
  · intro h
    cases entries with
    | nil => rfl
    | cons first others =>
      have hchars :
          Text.join "; ".toList (declarationChars first :: others.map declarationChars) = [] :=
        String.ofList_eq_empty_iff.1 h
      rw [← List.append_nil (declarationChars first), ← Text.append_join] at hchars
      have hfirst : ':' ∈ declarationChars first := by simp [declarationChars]
      rw [(List.append_eq_nil_iff.1 hchars).1] at hfirst
      exact absurd hfirst List.not_mem_nil
  · rintro rfl
    rfl

/-- There is an attribute if a style asks for anything. -/
theorem styleAttribute?_of_declares (h : Declares style entries) :
    styleAttribute? style =
      if entries = [] then none else some ⟨"style", some (cssOf entries)⟩ := by
  simp only [styleAttribute?, declarations_of_declares h]
  exact if_congr (String.isEmpty_iff.trans cssOf_eq_empty_iff) rfl rfl

/-- Only the style of a node is written as a style. -/
theorem eq_style_of_propAttribute? {prop : String × Value} {attr : Attribute}
    (h : propAttribute? tag prop = some attr) (hattr : attr.name = "style") :
    prop.1 = "style" := by
  have hplain : ¬ "data-".toList <+: attr.name.toList := by
    rw [hattr]
    decide
  have hnames : ∀ entry ∈ ownNames, entry.2 = "style" → entry.1 = "style" := by decide
  exact hnames _ (mem_ownNames (ownName?_of_not_data h hplain)) hattr

theorem filter_style_of_not_mem {props : Props} (hfresh : "style" ∉ Fields.names props) :
    (props.filterMap (propAttribute? tag)).filter (fun attr => attr.name = "style") = [] := by
  rw [List.filter_eq_nil_iff]
  intro attr hattr hname
  obtain ⟨prop, hprop, hwritten⟩ := List.mem_filterMap.1 hattr
  have hkey := eq_style_of_propAttribute? hwritten (of_decide_eq_true hname)
  exact hfresh (List.mem_map.2 ⟨prop, hprop, hkey⟩)

/-- The style is the only prop that is written as the style attribute. -/
theorem filter_style {props : Props} (hprops : (Fields.names props).Nodup)
    (hstyle : Fields.get? "style" props = some (.object style)) :
    (props.filterMap (propAttribute? tag)).filter (fun attr => attr.name = "style") =
      (styleAttribute? style).toList := by
  induction props with
  | nil => cases hstyle
  | cons prop rest ih =>
    obtain ⟨name, value⟩ := prop
    obtain ⟨hfresh, hrest⟩ : name ∉ Fields.names rest ∧ (Fields.names rest).Nodup :=
      List.nodup_cons.1 hprops
    rw [Fields.get?] at hstyle
    split at hstyle
    · next hname =>
      subst hname
      cases hstyle
      have hhead : propAttribute? tag ("style", .object style) = styleAttribute? style := rfl
      cases hattr : styleAttribute? style with
      | none =>
        rw [List.filterMap_cons_none (hhead.trans hattr), filter_style_of_not_mem hfresh]
        rfl
      | some attr =>
        rw [List.filterMap_cons_some (hhead.trans hattr),
          List.filter_cons_of_pos (by simpa using name_of_styleAttribute? hattr),
          filter_style_of_not_mem hfresh]
        rfl
    · next hname =>
      rw [← ih hrest hstyle]
      cases hattr : propAttribute? tag (name, value) with
      | none => rw [List.filterMap_cons_none hattr]
      | some attr =>
        have hother : attr.name ≠ "style" := fun heq =>
          hname (eq_style_of_propAttribute? hattr heq)
        rw [List.filterMap_cons_some hattr, List.filter_cons_of_neg (by simpa using hother)]

/-- A style asks for one declaration for each entry with a proper name and a text. The
tag of an element of a built-in type has a style attribute, and just one, if the style
asks for anything. Each declaration is read from it under its own name and in its order,
up to the first semicolon of its text; every semicolon adds one more. So what is read is
what the style asks for exactly if no string has a semicolon. -/
theorem style_reads_back_iff {type : String} {constructor : Constructor Element} {props : Props}
    (hget : primitives.get? type = some constructor) (hprops : (Fields.names props).Nodup)
    (hstyle : Fields.get? "style" props = some (.object style)) (content : Content Element) :
    ∃ entries attributes rest, (∀ declared, Declares style declared ↔ declared = entries) ∧
      Reader.opening? (constructor props content).render.toList =
        some (tagOf type, attributes, rest) ∧
      (entries = [] → attributes.filter (fun attr => attr.name = "style") = []) ∧
      (entries ≠ [] → ∃ css,
        attributes.filter (fun attr => attr.name = "style") = [⟨"style", some css⟩] ∧
        readDeclarations css = entries.flatMap written ∧
        (readDeclarations css).length =
          entries.length + (entries.map fun entry => entry.2.toList.count ';').sum ∧
        (readDeclarations css = entries.map some ↔ KeepsApart style)) := by
  obtain ⟨entries, hentries⟩ := exists_declares style
  obtain ⟨rest, hopening⟩ := opening?_render_of_get? hget props content
  have hfixed : (fixedAttributes type).filter (fun attr => attr.name = "style") = [] := by
    rw [List.filter_eq_nil_iff]
    intro attr hattr
    rw [eq_of_mem_fixedAttributes hattr]
    decide
  have hfilter : (constructor props content).attributes.filter (fun attr => attr.name = "style") =
      (if entries = [] then none else some ⟨"style", some (cssOf entries)⟩ :
        Option Attribute).toList := by
    rw [attributes_of_get? hget, List.filter_append, hfixed, List.nil_append,
      filter_style hprops hstyle, styleAttribute?_of_declares hentries]
  refine ⟨entries, _, rest, ?_, hopening, ?_, ?_⟩
  · exact fun declared => ⟨fun h => h.unique hentries, fun h => h ▸ hentries⟩
  · intro hnil
    rw [hfilter, if_pos hnil]
    rfl
  · intro hne
    have hreads := readDeclarations_cssOf hne hentries.isName_names
    refine ⟨cssOf entries, ?_, hreads, ?_, ?_⟩
    · rw [hfilter, if_neg hne]
      rfl
    · rw [hreads, length_flatMap_written]
    · rw [hreads, flatMap_written_eq_iff, hentries.keepsApart_iff]

/-- A name that is none, a number that is not a length, a truth value, a string and a
length. -/
def boxStyle : List (String × Value) :=
  [("color; top", .string "red"), ("flexGrow", .number (.whole ⟨1, by decide, by decide⟩)),
    ("hidden", .bool true), ("lineColor", .string "red: blue"),
    ("width", .number (.whole ⟨10, by decide, by decide⟩))]

theorem declares_boxStyle : Declares boxStyle
    [("flex-grow", "1"), ("line-color", "red: blue"), ("width", "10px")] := by
  refine .omitted (fun hname => absurd hname (by decide)) ?_
  refine .declared (by decide) (.count _ (by decide)) ?_
  refine .omitted (fun _ text htext => nomatch htext) ?_
  refine .declared (by decide) (.string _) ?_
  exact .declared (by decide) (.length _ (by decide)) .nil

/-- The entries that have a text are told apart again; a colon in one does no harm. -/
theorem style_reads_back_box :
    primitives.get? "View" = some (element "div") ∧
      (Fields.names [("style", Value.object boxStyle)]).Nodup ∧
      ∃ css attributes rest,
        Reader.opening? (element "div" [("style", .object boxStyle)] .empty).render.toList =
          some ("div", attributes, rest) ∧
        attributes.filter (fun attr => attr.name = "style") = [⟨"style", some css⟩] ∧
        readDeclarations css =
          [some ("flex-grow", "1"), some ("line-color", "red: blue"), some ("width", "10px")] := by
  have hget : primitives.get? "View" = some (element "div") := rfl
  have hprops : (Fields.names [("style", Value.object boxStyle)]).Nodup := by decide
  obtain ⟨entries, attributes, rest, hentries, hopening, _, hattribute⟩ :=
    style_reads_back_iff hget hprops rfl .empty
  obtain rfl := (hentries _).1 declares_boxStyle
  obtain ⟨css, hfilter, _, _, hreads⟩ := hattribute (List.cons_ne_nil _ _)
  have hapart : KeepsApart boxStyle := declares_boxStyle.keepsApart_iff.2 (by decide)
  exact ⟨hget, hprops, css, attributes, rest, hopening, hfilter, hreads.2 hapart⟩

/-- A colour that ends its declaration and goes on with another one. -/
theorem style_adds_declaration :
    (element "div" [("style", .object [("color", .string "red; display: none")])]
        .empty).attributes = [⟨"style", some "color: red; display: none"⟩] ∧
      Declares [("color", .string "red; display: none")] [("color", "red; display: none")] ∧
      readDeclarations "color: red; display: none" =
        [some ("color", "red"), some ("display", "none")] := by
  refine ⟨by decide, ?_, by decide⟩
  exact .declared (by decide) (.string _) .nil

end UiTemplate.Html
