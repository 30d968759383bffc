import Mathlib.Data.List.Forall2
import UiTemplate.Proofs.Expression.References
import UiTemplate.Proofs.Text.Split

/-!
From the text of a function reference to the call that an event makes. The text
alone decides how many arguments there are and where each of them stands; the
context only says what they are worth. So no value can put an argument in or take
one away, whatever commas and parentheses it contains. A reference that is written
in the usual way, with a comma and a blank between the arguments, has just the
arguments that were written.
-/

namespace UiTemplate

namespace Argument

/-- What an argument is worth, as it is written. -/
inductive Means (context : Context) (token : List Char) : Value → Prop where
  | property {before rest : List Char} (h : Text.IsFirstCut propertyMarker token before rest) :
    Means context token ((context.get? (String.ofList (before ++ rest))).getD .null)
  | text (hproperty : ¬ propertyMarker <:+: token) (htext : textMarker <:+: token) :
    Means context token (.string (String.ofList (interpolate context token)))
  | literal (hproperty : ¬ propertyMarker <:+: token) (htext : ¬ textMarker <:+: token) :
    Means context token (.string (String.ofList token))

/-- An argument evaluates to what its text means. -/
theorem means_eval (context : Context) (token : List Char) :
    Means context token ((parse token).eval context) := by
  rw [parse]
  split
  · next hproperty =>
    obtain ⟨⟨before, rest⟩, hcut⟩ := Option.isSome_iff_exists.1 hproperty
    rw [Text.eraseFirst, hcut]
    exact .property (Text.isFirstCut_of_cut? hcut)
  split
  · next hproperty htext =>
    rw [Text.contains_eq_true_iff] at hproperty htext
    exact .text hproperty htext
  · next hproperty htext =>
    rw [Text.contains_eq_true_iff] at hproperty htext
    exact .literal hproperty htext

end Argument

namespace FunctionReference

variable {context : Context} {reference path rest : List Char} {target : Callable}
  {tokens : List (List Char)}

/-- How many arguments are bound: none between parentheses with nothing but
blanks, and otherwise one more than there are commas. -/
def argumentCount (reference : List Char) : Nat :=
  if ((segmentOf reference).erase ')').all Text.isBlank then 0
  else (segmentOf reference).count ',' + 1

/-- How many arguments there are can be counted in the text. -/
theorem length_tokensOf (reference : List Char) :
    (tokensOf reference).length = argumentCount reference := by
  rw [tokensOf, argumentCount]
  split
  · rfl
  · have hlength := Text.length_splitOn ',' ((segmentOf reference).erase ')')
    rw [List.count_erase_of_ne (by decide)] at hlength
    rw [← hlength]
    cases Text.splitOn ',' ((segmentOf reference).erase ')') with
    | nil => rfl
    | cons first others => simp

def valuesOf (context : Context) (reference : List Char) : List Value :=
  (tokensOf reference).map fun token => (Argument.parse token).eval context

theorem means_valuesOf (context : Context) (reference : List Char) :
    List.Forall₂ (Argument.Means context) (tokensOf reference) (valuesOf context reference) := by
  rw [valuesOf, List.forall₂_map_right_iff, List.forall₂_same]
  intro token _
  exact Argument.means_eval context token

/-- A reference to anything but a function does nothing when it is called. -/
theorem bind_of_not_function
    (h : ∀ target, context.get? (String.ofList (targetOf reference)) ≠ some (.function target)) :
    (parse reference).bind context = .noop := by
  have hnone : (context.get? (String.ofList (targetOf reference))).bind Value.callable? = none := by
    rw [Option.bind_eq_none_iff]
    intro value hvalue
    cases value with
    | function target => exact absurd hvalue (h target)
    | null => rfl
    | bool b => rfl
    | number n => rfl
    | string s => rfl
    | array items => rfl
    | object members => rfl
    | invocation call => rfl
  simp only [bind, parse_eq, hnone]

/-- A reference without arguments passes the event's on; any other has its own. -/
theorem bind_of_function
    (h : context.get? (String.ofList (targetOf reference)) = some (.function target)) :
    (parse reference).bind context =
      if segmentOf reference = [] then .forward target
      else .bound target (valuesOf context reference) := by
  have hsome : (context.get? (String.ofList (targetOf reference))).bind Value.callable? =
      some target := by
    rw [h]
    rfl
  simp only [bind, parse_eq, hsome, List.isEmpty_iff]
  by_cases hsegment : segmentOf reference = []
  · rw [if_pos hsegment, if_pos hsegment]
  · rw [if_neg hsegment, if_neg hsegment]
    exact congrArg (Invocation.bound target) List.map_map

theorem segmentOf_of_not_mem (h : '(' ∉ reference) : segmentOf reference = [] := by
  rw [segmentOf, Text.dropWhile_of_not_mem h]
  rfl

/-! ### References as they are usually written -/

/-- A reference with its arguments between parentheses. -/
def written (path : List Char) (tokens : List (List Char)) : List Char :=
  path ++ '(' :: (Text.join [',', ' '] tokens ++ [')'])

/-- The arguments that can be written down as they are. Commas and parentheses
would end them, and blanks in front count only for the first one. -/
structure Writable (tokens : List (List Char)) : Prop where
  ne_nil : tokens ≠ []
  comma : ∀ token ∈ tokens, ',' ∉ token
  left : ∀ token ∈ tokens, '(' ∉ token
  right : ∀ token ∈ tokens, ')' ∉ token
  start : ∀ token ∈ tokens.tail, ∀ c, token.head? = some c → Text.isBlank c = false
  not_blank : ∀ token, tokens = [token] → token.all Text.isBlank = false

theorem all_ne_of_not_mem {c : Char} {text : List Char} (h : c ∉ text) :
    ∀ d ∈ text, (d != c) = true := by
  intro d hd
  simpa using ne_of_mem_of_not_mem hd h

theorem targetOf_append (hpath : '(' ∉ path) (rest : List Char) :
    targetOf (path ++ '(' :: rest) = path := by
  rw [targetOf, List.takeWhile_append_of_pos (all_ne_of_not_mem hpath)]
  simp

theorem segmentOf_append (hpath : '(' ∉ path) (hrest : '(' ∉ rest) :
    segmentOf (path ++ '(' :: rest) = rest := by
  rw [segmentOf, List.dropWhile_append_of_pos (all_ne_of_not_mem hpath),
    List.dropWhile_cons_of_neg (by simp), List.drop_one, List.tail_cons,
    Text.takeWhile_of_not_mem hrest]

theorem not_mem_join {c : Char} (hc : c ∉ [',', ' ']) (htokens : ∀ token ∈ tokens, c ∉ token) :
    c ∉ Text.join [',', ' '] tokens := by
  intro hmem
  rcases Text.mem_of_mem_join hmem with hgap | ⟨token, htoken, hin⟩
  · exact hc hgap
  · exact htokens token htoken hin

theorem targetOf_written (hpath : '(' ∉ path) (tokens : List (List Char)) :
    targetOf (written path tokens) = path :=
  targetOf_append hpath _

theorem segmentOf_written (hpath : '(' ∉ path) (h : Writable tokens) :
    segmentOf (written path tokens) = Text.join [',', ' '] tokens ++ [')'] := by
  apply segmentOf_append hpath
  have hjoin : '(' ∉ Text.join [',', ' '] tokens := not_mem_join (by decide) h.left
  simp [hjoin]

/-- A comma is not blank, so only a single token could be mistaken for nothing. -/
theorem Writable.all_isBlank_join (h : Writable tokens) :
    (Text.join [',', ' '] tokens).all Text.isBlank = false := by
  cases tokens with
  | nil => exact absurd rfl h.ne_nil
  | cons first others =>
    cases others with
    | nil => exact h.not_blank first rfl
    | cons next others =>
      rw [List.all_eq_false]
      exact ⟨',', by simp [Text.join], by decide⟩

theorem trimStart_blank_append {token : List Char}
    (h : ∀ c, token.head? = some c → Text.isBlank c = false) :
    Text.trimStart ([' '] ++ token) = token := by
  have hblank : Text.isBlank ' ' = true := by decide
  rw [Text.trimStart, List.singleton_append, List.dropWhile_cons_of_pos hblank]
  cases token with
  | nil => rfl
  | cons c token => rw [List.dropWhile_cons_of_neg (by simp [h c rfl])]

/-- Arguments that are written one after the other are read as they are. -/
theorem tokensOf_written (hpath : '(' ∉ path) (h : Writable tokens) :
    tokensOf (written path tokens) = tokens := by
  have hright : ')' ∉ Text.join [',', ' '] tokens := not_mem_join (by decide) h.right
  have hlist : (segmentOf (written path tokens)).erase ')' = Text.join [',', ' '] tokens := by
    rw [segmentOf_written hpath h, List.erase_append_right _ hright]
    exact List.append_nil _
  rw [tokensOf, hlist, if_neg (by simp [h.all_isBlank_join])]
  cases tokens with
  | nil => exact absurd rfl h.ne_nil
  | cons first others =>
    obtain ⟨hfirst, hothers⟩ := List.forall_mem_cons.1 h.comma
    have hsplit : Text.splitOn ',' (Text.join [',', ' '] (first :: others)) =
        first :: others.map fun piece => [' '] ++ piece :=
      Text.splitOn_join (by decide) hfirst hothers
    have htrim : (others.map fun piece => [' '] ++ piece).map Text.trimStart = others := by
      rw [List.map_map]
      refine (List.map_congr_left ?_).trans (List.map_id others)
      intro token htoken
      exact trimStart_blank_append (h.start token htoken)
    simp only [hsplit, htrim]

/-- What an event comes to depends on the path and the text between the
parentheses. If the path does not lead to a function, no call is made and the
result is null. If it does, that function is called once: with the arguments of the
event if there are no parentheses or nothing is between them, and otherwise with
as many arguments as the text says, whatever the context. A reference that is
written with arguments has these, each worth what it means in the context. -/
theorem call_of_reference (context : Context) (reference : List Char) :
    ((∀ target, context.get? (String.ofList (targetOf reference)) ≠ some (.function target)) →
      ((parse reference).bind context).isNoop = true ∧
        ∀ event host, ((parse reference).bind context).call? event = none ∧
          ((parse reference).bind context).invoke host event = .null) ∧
    (∀ target, context.get? (String.ofList (targetOf reference)) = some (.function target) →
      ('(' ∉ reference ∨ segmentOf reference = [] →
        ∀ event host, ((parse reference).bind context).call? event = some (target, event) ∧
          ((parse reference).bind context).invoke host event = host target event) ∧
      ('(' ∈ reference → segmentOf reference ≠ [] →
        ∃ arguments, arguments.length = argumentCount reference ∧
          List.Forall₂ (Argument.Means context) (tokensOf reference) arguments ∧
          ∀ event host,
            ((parse reference).bind context).call? event = some (target, arguments) ∧
            ((parse reference).bind context).invoke host event = host target arguments)) ∧
    ∀ path tokens target, '(' ∉ path →
      context.get? (String.ofList path) = some (.function target) → Writable tokens →
        ∃ arguments, List.Forall₂ (Argument.Means context) tokens arguments ∧
          ∀ event host,
            ((parse (written path tokens)).bind context).call? event = some (target, arguments) ∧
            ((parse (written path tokens)).bind context).invoke host event =
              host target arguments := by
  refine ⟨?_, ?_, ?_⟩
  · intro hnot
    rw [bind_of_not_function hnot]
    exact ⟨rfl, fun _ _ => ⟨rfl, rfl⟩⟩
  · intro target htarget
    have hbind := bind_of_function htarget
    constructor
    · intro hnone event host
      have hsegment : segmentOf reference = [] := hnone.elim segmentOf_of_not_mem id
      rw [hbind, if_pos hsegment]
      exact ⟨rfl, rfl⟩
    · intro _ hsegment
      refine ⟨valuesOf context reference, ?_, means_valuesOf context reference, ?_⟩
      · rw [valuesOf, List.length_map, length_tokensOf]
      · intro event host
        rw [hbind, if_neg hsegment]
        exact ⟨rfl, rfl⟩
  · intro path tokens target hpath htarget htokens
    have hmeans := means_valuesOf context (written path tokens)
    have hsegment : segmentOf (written path tokens) ≠ [] := by
      rw [segmentOf_written hpath htokens]
      exact List.append_ne_nil_of_right_ne_nil _ (List.cons_ne_nil _ _)
    rw [← targetOf_written hpath tokens] at htarget
    rw [tokensOf_written hpath htokens] at hmeans
    refine ⟨_, hmeans, ?_⟩
    intro event host
    rw [bind_of_function htarget, if_neg hsegment]
    exact ⟨rfl, rfl⟩

/-- A function, and an item whose name looks like two arguments. -/
def kitchen : Context :=
  ⟨[("item", .string "tea, (milk)"), ("order", .function ⟨1, "order"⟩)]⟩

theorem writable_order : Writable ["prop::item".toList, "two".toList] where
  ne_nil := List.cons_ne_nil _ _
  comma := by decide
  left := by decide
  right := by decide
  start := by
    intro token htoken c hc
    obtain rfl : token = "two".toList := List.mem_singleton.1 htoken
    obtain rfl : 't' = c := Option.some.inj hc
    decide
  not_blank := by
    intro token htoken
    cases (List.cons.inj htoken).2

/-- Arguments are told apart in the text, so a comma and parentheses in a value count for
nothing. -/
theorem call_of_reference_order :
    ((∀ target, kitchen.get? "item" ≠ some (.function target)) ∧
      ∀ event host, ((parse "item(now)".toList).bind kitchen).invoke host event = .null) ∧
    (kitchen.get? "order" = some (.function ⟨1, "order"⟩) ∧
      ∃ arguments, arguments.length = 3 ∧ ∀ event,
        ((parse "order(prop::item, b)c,)".toList).bind kitchen).call? event =
          some (⟨1, "order"⟩, arguments)) ∧
    ('(' ∉ "order".toList ∧ Writable ["prop::item".toList, "two".toList] ∧
      List.Forall₂ (Argument.Means kitchen) ["prop::item".toList, "two".toList]
        [.string "tea, (milk)", .string "two"]) := by
  have hdata : ∀ target, kitchen.get? "item" ≠ some (.function target) := by
    intro target htarget
    cases htarget
  have hfunction : kitchen.get? "order" = some (.function ⟨1, "order"⟩) := rfl
  have hpath : '(' ∉ "order".toList := by decide
  obtain ⟨hnone, _⟩ := call_of_reference kitchen "item(now)".toList
  obtain ⟨_, hsome, hwritten⟩ := call_of_reference kitchen "order(prop::item, b)c,)".toList
  obtain ⟨_, hbound⟩ := hsome _ hfunction
  obtain ⟨arguments, hlength, _, hcall⟩ := hbound (by decide) (by decide)
  obtain ⟨values, hmeans, hvalues⟩ := hwritten _ _ _ hpath hfunction writable_order
  have hcalled : ((parse (written "order".toList ["prop::item".toList, "two".toList])).bind
      kitchen).call? [] = some (⟨1, "order"⟩, [.string "tea, (milk)", .string "two"]) := rfl
  obtain ⟨hboth, _⟩ := hvalues [] fun _ _ => .null
  rw [hcalled, Option.some.injEq, Prod.mk.injEq] at hboth
  rw [← hboth.2] at hmeans
  refine ⟨⟨hdata, fun event host => ?_⟩, ⟨hfunction, arguments, hlength, fun event => ?_⟩,
    hpath, writable_order, hmeans⟩
  · obtain ⟨_, hnothing⟩ := hnone hdata
    exact (hnothing event host).2
  · exact (hcall event fun _ _ => .null).1

end FunctionReference

end UiTemplate
