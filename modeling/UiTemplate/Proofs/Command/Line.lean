import UiTemplate.Command.Line
import UiTemplate.Proofs.Text.Cut

/-!
What a command line comes to where an option is left out. Only a word that names an
option gives it a value, so a rendering without a word for the keys has those from
positions. The plain command lines, with or without words for a context, are read as
they are meant.
-/

namespace UiTemplate.Command

variable {grammar : Grammar} {given next last : Given} {words : List String}
  {name value word file path base : String} {context : Option String} {keys : KeyStrategy}
  {command : Command}

/-! ### What is given -/

theorem exists_of_bind {α β : Type} {first : Except Refusal α} {rest : α → Except Refusal β}
    {result : β} (h : first.bind rest = .ok result) :
    ∃ middle, first = .ok middle ∧ rest middle = .ok result := by
  cases first with
  | error refusal => cases h
  | ok middle => exact ⟨middle, rfl, h⟩

/-- An option stays as it is when another one is set. -/
theorem option?_of_setOption {other : String} (h : given.setOption grammar other value = .ok next)
    (hother : name ≠ other) : next.option? name = given.option? name := by
  rw [Given.setOption] at h
  split at h
  · cases h
  split at h
  · cases h
  · cases h
    rw [Given.option?, Fields.get?, if_neg hother.symm]
    rfl

/-- An option stays as it is when plain words follow. -/
theorem option?_of_addWord (h : given.addWord grammar word = .ok next) :
    next.option? name = given.option? name := by
  rw [Given.addWord] at h
  split at h
  · cases h
  split at h
  · cases h
    rfl
  · cases h

theorem option?_of_addWords (h : words.foldlM (Given.addWord grammar) given = .ok last) :
    last.option? name = given.option? name := by
  induction words generalizing given with
  | nil =>
    cases h
    rfl
  | cons word words ih =>
    obtain ⟨next, hword, hrest⟩ := exists_of_bind h
    rw [ih hrest, option?_of_addWord hword]

theorem ne_of_long {other : String} {long : Option String}
    (h : ∀ value, Word.of word ≠ .long name value) (hword : Word.of word = .long other long) :
    name ≠ other := by
  rintro rfl
  exact h _ hword

/-- An option that no word names has the value that it had. -/
theorem option?_of_read (h : read grammar given words = .ok last)
    (hname : ∀ word ∈ words, ∀ value, Word.of word ≠ .long name value) :
    last.option? name = given.option? name := by
  fun_induction read grammar given words with
  | case1 given =>
    cases h
    rfl
  | case2 given word rest hword => exact option?_of_addWords h
  | case3 | case4 | case6 | case7 | case9 => cases h
  | case5 given word rest other value hword ih =>
    obtain ⟨hfirst, hrest⟩ := List.forall_mem_cons.1 hname
    obtain ⟨next, hset, hread⟩ := exists_of_bind h
    rw [ih next hread hrest, option?_of_setOption hset (ne_of_long hfirst hword)]
  | case8 given word other hword _ value rest hvalue ih =>
    obtain ⟨hfirst, hrest⟩ := List.forall_mem_cons.1 hname
    obtain ⟨next, hset, hread⟩ := exists_of_bind h
    rw [ih next hread (List.forall_mem_cons.1 hrest).2,
      option?_of_setOption hset (ne_of_long hfirst hword)]
  | case10 given word rest hword ih =>
    obtain ⟨next, hadd, hread⟩ := exists_of_bind h
    rw [ih next hread (List.forall_mem_cons.1 hname).2, option?_of_addWord hadd]

/-! ### Renderings -/

/-- A rendering has one file, and the strategy for keys that is named or else the
tree path. -/
theorem renderOf_eq_ok (h : renderOf given = .ok command) : ∃ file,
    given.words = [file] ∧ command = .render file (given.option? "context")
      (((given.option? "keys").bind keys?).getD .treePath) := by
  rw [renderOf] at h
  split at h
  · next file hwords =>
    cases h
    exact ⟨file, hwords, rfl⟩
  · cases h

/-- The arguments of one command are never taken for the other. -/
theorem fetchOf_ne_render : fetchOf given ≠ .ok (.render file context keys) := by
  rw [fetchOf]
  split
  · exact nofun
  · exact nofun

/-- A rendering is asked for by its name. -/
theorem exists_given_of_parse (h : parse words = .ok (.render file context keys)) :
    ∃ rest given, words = "render" :: rest ∧ read renderGrammar .nothing rest = .ok given ∧
      renderOf given = .ok (.render file context keys) := by
  revert h
  fun_cases parse words with
  | case11 rest =>
    intro h
    obtain ⟨given, hread, hrender⟩ := exists_of_bind h
    exact ⟨rest, given, rfl, hread, hrender⟩
  | case12 rest =>
    intro h
    obtain ⟨given, _, hfetch⟩ := exists_of_bind h
    exact absurd hfetch fetchOf_ne_render
  | case13 rest =>
    intro h
    obtain ⟨given, _, hserve⟩ := exists_of_bind h
    cases hserve
  | _ => exact nofun

/-- Keys come from positions where nothing is said about them. -/
theorem keys_of_parse (h : parse words = .ok (.render file context keys))
    (hkeys : ∀ word ∈ words, ∀ value, Word.of word ≠ .long "keys" value) :
    keys = .treePath := by
  obtain ⟨rest, given, rfl, hread, hrender⟩ := exists_given_of_parse h
  obtain ⟨_, _, hcommand⟩ := renderOf_eq_ok hrender
  have hnone : given.option? "keys" = none :=
    option?_of_read hread (List.forall_mem_cons.1 hkeys).2
  rw [hnone] at hcommand
  cases hcommand
  rfl

/-! ### The plain command lines -/

/-- A long option is written as its name and, behind an equals sign, its value. -/
theorem Word.of_long (name : String) (hname : '=' ∉ name.toList) (value : String) :
    Word.of ("--" ++ name ++ "=" ++ value) = .long name (some value) := by
  have hchars : ("--" ++ name ++ "=" ++ value).toList =
      '-' :: '-' :: (name.toList ++ '=' :: value.toList) := by simp
  have hcut := Text.cut?_append_cons hname value.toList
  obtain ⟨first, text, htext⟩ :=
    List.exists_cons_of_ne_nil (l := name.toList ++ '=' :: value.toList) (by simp)
  rw [htext] at hchars hcut
  rw [Word.of, hchars]
  simp only [hcut, String.ofList_toList]

/-- How a context is given, if there is one. -/
def contextWords : Option String → List String
  | none => []
  | some words => ["--context=" ++ words]

/-- A long option is taken in and the words behind it are read on. -/
theorem read_long (hword : Word.of word = .long name (some value))
    (hset : given.setOption grammar name value = .ok next) (rest : List String) :
    read grammar given (word :: rest) = read grammar next rest := by
  rw [read, hword]
  simp only [hset, bind, Except.bind]

theorem read_plain (hword : Word.of word = .plain) (hadd : given.addWord grammar word = .ok next)
    (rest : List String) : read grammar given (word :: rest) = read grammar next rest := by
  rw [read, hword]
  simp only [hadd, bind, Except.bind]

theorem of_context (words : String) :
    Word.of ("--context=" ++ words) = .long "context" (some words) :=
  Word.of_long "context" (by decide) words

/-- A file, and a context or none, is all that a rendering needs to be told. -/
theorem parse_render (hfile : Word.of file = .plain) (hempty : file ≠ "")
    (context : Option String) :
    parse ("render" :: file :: contextWords context) = .ok (.render file context .treePath) := by
  have hadd : Given.nothing.addWord renderGrammar file = .ok ⟨[], [file]⟩ := by
    have hfits : pathText file = true := by simpa [pathText] using hempty
    simp only [Given.addWord, Given.nothing, renderGrammar, List.length_nil,
      List.getElem?_cons_zero, hfits, if_true]
  have hparse : parse ("render" :: file :: contextWords context) =
      (read renderGrammar .nothing (file :: contextWords context)).bind renderOf := rfl
  rw [hparse, read_plain hfile hadd]
  cases context with
  | none => rfl
  | some words =>
    rw [contextWords, read_long (of_context words) rfl]
    rfl

/-- A fetch needs to be told a path and a base. -/
theorem parse_fetch (hpath : Word.of path = .plain) (base : String) (context : Option String) :
    parse ("fetch" :: path :: ("--base=" ++ base) :: contextWords context) =
      .ok (.fetch path (some base) none context) := by
  have hadd : Given.nothing.addWord fetchGrammar path = .ok ⟨[], [path]⟩ := rfl
  have hbase : Word.of ("--base=" ++ base) = .long "base" (some base) :=
    Word.of_long "base" (by decide) base
  have hparse : parse ("fetch" :: path :: ("--base=" ++ base) :: contextWords context) =
      (read fetchGrammar .nothing (path :: ("--base=" ++ base) :: contextWords context)).bind
        fetchOf := rfl
  rw [hparse, read_plain hpath hadd, read_long hbase rfl]
  cases context with
  | none => rfl
  | some words =>
    rw [contextWords, read_long (of_context words) rfl]
    rfl

end UiTemplate.Command
