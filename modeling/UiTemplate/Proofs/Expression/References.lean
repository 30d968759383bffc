import UiTemplate.Binding
import UiTemplate.Proofs.Expression.Placeholders

/-!
What the strings of a template refer to, said of the strings as they are written
and without evaluating them. A reference asks a context either for the value at
a path or only for how that value is shown, and placeholders ask for no more
than that. Parsing a string neither loses nor invents a reference. Two contexts
that answer what a string asks for in the same way give it the same value.
-/

namespace UiTemplate

/-- What a context is asked for. -/
inductive Reference where
  | value (path : String)
  | shown (path : String)
deriving DecidableEq

/-- Both contexts give the same answer. -/
def Context.AgreeOn (first second : Context) : Reference → Prop
  | .value path => first.get? path = second.get? path
  | .shown path => first.shown path = second.shown path

namespace TextPart

/-- The path of one of the placeholders of a text. -/
inductive HasPath : List Char → String → Prop where
  | first {text before path rest : List Char} (h : IsSplit text before path rest) :
    HasPath text (String.ofList path)
  | later {text before path rest : List Char} {other : String}
    (h : IsSplit text before path rest) (hrest : HasPath rest other) : HasPath text other

end TextPart

namespace Argument

/-- What an argument refers to, as it is written. -/
inductive Asks (token : List Char) : Reference → Prop where
  | property {before rest : List Char} (h : Text.IsFirstCut propertyMarker token before rest) :
    Asks token (.value (String.ofList (before ++ rest)))
  | text {path : String} (hproperty : ¬ propertyMarker <:+: token)
    (htext : textMarker <:+: token) (hpath : TextPart.HasPath token path) :
    Asks token (.shown path)

end Argument

namespace FunctionReference

def targetOf (reference : List Char) : List Char :=
  reference.takeWhile (· != '(')

/-- What stands between the first opening parenthesis and the second one, or the
end if there is no second one. -/
def segmentOf (reference : List Char) : List Char :=
  ((reference.dropWhile (· != '(')).drop 1).takeWhile (· != '(')

/-- The arguments as they are written, without their closing parenthesis. -/
def tokensOf (reference : List Char) : List (List Char) :=
  let list := (segmentOf reference).erase ')'
  if list.all Text.isBlank then []
  else
    match Text.splitOn ',' list with
    | [] => []
    | first :: others => first :: others.map Text.trimStart

end FunctionReference

namespace Expression

/-- What a string refers to, as it is written. -/
inductive Asks (raw : List Char) : Reference → Prop where
  | property {path : List Char} (h : raw = propertyMarker ++ path) :
    Asks raw (.value (String.ofList path))
  | target {reference : List Char} (h : raw = functionMarker ++ reference) :
    Asks raw (.value (String.ofList (FunctionReference.targetOf reference)))
  | argument {reference token : List Char} {asked : Reference}
    (h : raw = functionMarker ++ reference)
    (htoken : token ∈ FunctionReference.tokensOf reference) (hasks : Argument.Asks token asked) :
    Asks raw asked
  | text {path : String} (hproperty : ¬ propertyMarker <+: raw)
    (hfunction : ¬ functionMarker <+: raw) (hpath : TextPart.HasPath raw path) :
    Asks raw (.shown path)

end Expression

/-- A document holds a string, at any depth. -/
inductive Json.Mentions : Json → String → Prop where
  | here (s : String) : Mentions (.string s) s
  | item {items : List Json} {item : Json} {s : String} (hitem : item ∈ items)
    (h : Mentions item s) : Mentions (.array items) s
  | member {members : List (String × Json)} {name : String} {value : Json} {s : String}
    (hmember : (name, value) ∈ members) (h : Mentions value s) : Mentions (.object members) s

namespace TextPart

def reference? : TextPart → Option Reference
  | .literal _ => none
  | .placeholder path => some (.shown path)

/-- The paths of placeholders are those that parsing finds. -/
theorem hasPath_iff {text : List Char} {path : String} :
    HasPath text path ↔ .placeholder path ∈ parse text := by
  constructor
  · intro h
    induction h with
    | first hsplit => simp [parse_of_isSplit hsplit]
    | later hsplit _ ih => simp [parse_of_isSplit hsplit, ih]
  · intro h
    by_cases hplaceholder : HasPlaceholder text
    · obtain ⟨before, found, rest, hsplit⟩ := exists_isSplit hplaceholder
      have hlength := hsplit.length_lt
      rw [parse_of_isSplit hsplit, List.mem_cons, List.mem_cons] at h
      rcases h with hliteral | hfound | hrest
      · cases hliteral
      · cases hfound
        exact .first hsplit
      · exact .later hsplit (hasPath_iff.2 hrest)
    · rw [parse_of_not_hasPlaceholder hplaceholder, List.mem_singleton] at h
      cases h
termination_by text.length

theorem mem_references {parts : List TextPart} {asked : Reference} :
    asked ∈ parts.filterMap reference? ↔
      ∃ path, .placeholder path ∈ parts ∧ asked = .shown path := by
  rw [List.mem_filterMap]
  constructor
  · rintro ⟨part, hpart, hreference⟩
    cases part with
    | literal text => cases hreference
    | placeholder path => exact ⟨path, hpart, (Option.some.inj hreference).symm⟩
  · rintro ⟨path, hpath, rfl⟩
    exact ⟨_, hpath, rfl⟩

variable {first second : Context}

theorem flatMap_fill_congr {parts : List TextPart}
    (h : ∀ asked ∈ parts.filterMap reference?, first.AgreeOn second asked) :
    parts.flatMap (fill first) = parts.flatMap (fill second) := by
  have hfill : parts.map (fill first) = parts.map (fill second) := by
    apply List.map_congr_left
    intro part hpart
    cases part with
    | literal text => rfl
    | placeholder path =>
      have hasked : .shown path ∈ parts.filterMap reference? :=
        mem_references.2 ⟨path, hpart, rfl⟩
      have hshown : first.shown path = second.shown path := h _ hasked
      rw [fill, fill, hshown]
  rw [List.flatMap_def, List.flatMap_def, hfill]

end TextPart

namespace Argument

def references : Argument → List Reference
  | .property path => [.value path]
  | .text parts => parts.filterMap TextPart.reference?
  | .literal _ => []

/-- An argument refers to the same after it is parsed. -/
theorem asks_iff {token : List Char} {asked : Reference} :
    Asks token asked ↔ asked ∈ (parse token).references := by
  constructor
  · intro h
    cases h with
    | property h =>
      have hcut := Text.cut?_eq_some_iff.2 h
      have hproperty : Text.contains propertyMarker token = true := by
        rw [Text.contains, hcut, Option.isSome_some]
      rw [parse, if_pos hproperty, Text.eraseFirst, hcut]
      exact List.mem_singleton_self _
    | text hproperty htext hpath =>
      rw [← Text.contains_eq_true_iff] at hproperty htext
      rw [parse, if_neg hproperty, if_pos htext]
      exact TextPart.mem_references.2 ⟨_, TextPart.hasPath_iff.1 hpath, rfl⟩
  · intro h
    rw [parse] at h
    split at h
    · next hproperty =>
      obtain ⟨⟨before, rest⟩, hcut⟩ := Option.isSome_iff_exists.1 hproperty
      rw [Text.eraseFirst, hcut, references, List.mem_singleton] at h
      rw [h]
      exact .property (Text.isFirstCut_of_cut? hcut)
    split at h
    · next hproperty htext =>
      rw [Text.contains_eq_true_iff] at hproperty htext
      obtain ⟨path, hpath, rfl⟩ := TextPart.mem_references.1 h
      exact .text hproperty htext (TextPart.hasPath_iff.2 hpath)
    · cases h

variable {first second : Context}

theorem eval_congr {argument : Argument}
    (h : ∀ asked ∈ argument.references, first.AgreeOn second asked) :
    argument.eval first = argument.eval second := by
  cases argument with
  | property path =>
    have hget : first.get? path = second.get? path := h _ (List.mem_singleton_self _)
    rw [eval, eval, Context.property, Context.property, hget]
  | text parts => rw [eval, eval, TextPart.flatMap_fill_congr h]
  | literal token => rfl

end Argument

namespace FunctionReference

def references (reference : FunctionReference) : List Reference :=
  .value reference.path :: (reference.arguments.getD []).flatMap Argument.references

theorem parseList_segmentOf (reference : List Char) :
    Argument.parseList (segmentOf reference) = (tokensOf reference).map Argument.parse := by
  simp only [Argument.parseList, tokensOf, Text.eraseFirst_singleton]
  split
  · rfl
  · cases Text.splitOn ',' ((segmentOf reference).erase ')') with
    | nil => rfl
    | cons first others => simp only [List.map_cons, List.map_map, Function.comp_def]

/-- A reference is parsed into its target and the arguments its tokens stand for. -/
theorem parse_eq (reference : List Char) :
    parse reference = ⟨String.ofList (targetOf reference),
      if (segmentOf reference).isEmpty then none
      else some ((tokensOf reference).map Argument.parse)⟩ := by
  rw [← parseList_segmentOf, parse, targetOf, segmentOf]
  by_cases hfirst : '(' ∈ reference
  · by_cases hsecond : '(' ∈ (reference.dropWhile (· != '(')).drop 1
    · simp only [Text.cut?_singleton, if_pos hfirst, if_pos hsecond]
    · simp only [Text.cut?_singleton, if_pos hfirst, if_neg hsecond,
        Text.takeWhile_of_not_mem hsecond]
  · rw [Text.cut?_singleton, if_neg hfirst, Text.takeWhile_of_not_mem hfirst,
      Text.dropWhile_of_not_mem hfirst]
    rfl

-- A second opening parenthesis ends the arguments
example : parse "send(prop::to, now)(later)".toList =
    ⟨"send", some [.property "to", .literal "now"]⟩ := rfl

theorem arguments_parse (reference : List Char) :
    (parse reference).arguments.getD [] = (tokensOf reference).map Argument.parse := by
  rw [parse_eq]
  by_cases hempty : (segmentOf reference).isEmpty = true
  · have hsegment : segmentOf reference = [] := List.isEmpty_iff.1 hempty
    rw [if_pos hempty, tokensOf, hsegment]
    rfl
  · rw [if_neg hempty, Option.getD_some]

/-- A reference asks for its target and for whatever its arguments ask for. -/
theorem mem_references_parse {reference : List Char} {asked : Reference} :
    asked ∈ (parse reference).references ↔
      asked = .value (String.ofList (targetOf reference)) ∨
        ∃ token ∈ tokensOf reference, Argument.Asks token asked := by
  rw [references, List.mem_cons, arguments_parse, parse_eq, List.flatMap_map, List.mem_flatMap]
  simp only [Argument.asks_iff]

variable {first second : Context}

theorem bind_congr {reference : FunctionReference}
    (h : ∀ asked ∈ reference.references, first.AgreeOn second asked) :
    reference.bind first = reference.bind second := by
  have hget : first.get? reference.path = second.get? reference.path := h _ List.mem_cons_self
  have heval : ∀ argument ∈ reference.arguments.getD [],
      argument.eval first = argument.eval second := by
    intro argument hargument
    apply Argument.eval_congr
    intro asked hasked
    exact h asked (List.mem_cons_of_mem _ (List.mem_flatMap_of_mem hargument hasked))
  rw [bind, bind, hget]
  cases (second.get? reference.path).bind Value.callable? with
  | none => rfl
  | some target =>
    cases harguments : reference.arguments with
    | none => rfl
    | some arguments =>
      rw [harguments] at heval
      exact congrArg (Invocation.bound target) (List.map_congr_left heval)

end FunctionReference

namespace Expression

def references : Expression → List Reference
  | .property path => [.value path]
  | .function reference => reference.references
  | .text parts => parts.filterMap TextPart.reference?

theorem parse_property (path : List Char) :
    parse (propertyMarker ++ path) = .property (String.ofList path) := by
  rw [parse, Text.after?_append]

theorem parse_function (reference : List Char) :
    parse (functionMarker ++ reference) = .function (FunctionReference.parse reference) := by
  have hproperty : Text.after? propertyMarker (functionMarker ++ reference) = none := rfl
  rw [parse, hproperty, Text.after?_append]

/-- A string refers to the same after it is parsed. -/
theorem asks_iff {raw : List Char} {asked : Reference} :
    Asks raw asked ↔ asked ∈ (parse raw).references := by
  constructor
  · intro h
    cases h with
    | property h =>
      rw [h, parse_property]
      exact List.mem_singleton_self _
    | target h =>
      rw [h, parse_function]
      exact FunctionReference.mem_references_parse.2 (.inl rfl)
    | argument h htoken hasks =>
      rw [h, parse_function]
      exact FunctionReference.mem_references_parse.2 (.inr ⟨_, htoken, hasks⟩)
    | text hproperty hfunction hpath =>
      rw [parse, Text.after?_eq_none_iff.2 hproperty, Text.after?_eq_none_iff.2 hfunction]
      exact TextPart.mem_references.2 ⟨_, TextPart.hasPath_iff.1 hpath, rfl⟩
  · intro h
    rw [parse] at h
    split at h
    · next hproperty =>
      rw [references, List.mem_singleton] at h
      rw [h]
      exact .property (Text.after?_eq_some_iff.1 hproperty)
    · next hproperty =>
      split at h
      · next hfunction =>
        have hraw := Text.after?_eq_some_iff.1 hfunction
        rcases FunctionReference.mem_references_parse.1 h with rfl | ⟨token, htoken, hasks⟩
        · exact .target hraw
        · exact .argument hraw htoken hasks
      · next hfunction =>
        obtain ⟨path, hpath, rfl⟩ := TextPart.mem_references.1 h
        exact .text (Text.after?_eq_none_iff.1 hproperty) (Text.after?_eq_none_iff.1 hfunction)
          (TextPart.hasPath_iff.2 hpath)

variable {first second : Context}

theorem eval_congr {expression : Expression}
    (h : ∀ asked ∈ expression.references, first.AgreeOn second asked) :
    expression.eval first = expression.eval second := by
  cases expression with
  | property path =>
    have hget : first.get? path = second.get? path := h _ (List.mem_singleton_self _)
    rw [eval, eval, Context.property, Context.property, hget]
  | function reference => rw [eval, eval, FunctionReference.bind_congr h]
  | text parts => rw [eval, eval, TextPart.flatMap_fill_congr h]

end Expression

variable {first second : Context}

theorem interpolate_congr {text : List Char}
    (h : ∀ path, TextPart.HasPath text path → first.AgreeOn second (.shown path)) :
    interpolate first text = interpolate second text := by
  apply TextPart.flatMap_fill_congr
  intro asked hasked
  obtain ⟨path, hpath, rfl⟩ := TextPart.mem_references.1 hasked
  exact h path (TextPart.hasPath_iff.2 hpath)

/-- A string depends on nothing in the context but what it asks for. -/
theorem evaluate_congr {raw : String}
    (h : ∀ asked, Expression.Asks raw.toList asked → first.AgreeOn second asked) :
    evaluate first raw = evaluate second raw :=
  Expression.eval_congr fun asked hasked => h asked (Expression.asks_iff.2 hasked)

mutual

/-- A document depends on nothing but what the strings in it ask for. -/
theorem bindValue_congr : (json : Json) →
    (∀ s, json.Mentions s → ∀ asked, Expression.Asks s.toList asked → first.AgreeOn second asked) →
    bindValue first json = bindValue second json
  | .null, _ => rfl
  | .bool _, _ => rfl
  | .number _, _ => rfl
  | .string s, h => by rw [bindValue, bindValue, evaluate_congr (h s (.here s))]
  | .array items, h => by
    rw [bindValue, bindValue, bindItems_congr items fun item hitem s hs => h s (.item hitem hs)]
  | .object members, h => by
    rw [bindValue, bindValue,
      bindMembers_congr members fun name value hmember s hs => h s (.member hmember hs)]

theorem bindItems_congr : (items : List Json) →
    (∀ item ∈ items, ∀ s, item.Mentions s →
      ∀ asked, Expression.Asks s.toList asked → first.AgreeOn second asked) →
    bindItems first items = bindItems second items
  | [], _ => rfl
  | item :: items, h => by
    obtain ⟨hitem, hitems⟩ := List.forall_mem_cons.1 h
    rw [bindItems, bindItems, bindValue_congr item hitem, bindItems_congr items hitems]

theorem bindMembers_congr : (members : List (String × Json)) →
    (∀ name value, (name, value) ∈ members → ∀ s, value.Mentions s →
      ∀ asked, Expression.Asks s.toList asked → first.AgreeOn second asked) →
    bindMembers first members = bindMembers second members
  | [], _ => rfl
  | (name, value) :: members, h => by
    have hvalue := bindValue_congr value (h name value List.mem_cons_self)
    have hmembers := bindMembers_congr members fun name value hmember =>
      h name value (List.mem_cons_of_mem _ hmember)
    rw [bindMembers, bindMembers, hvalue, hmembers]

end

end UiTemplate
