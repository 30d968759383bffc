import UiTemplate.Proofs.Build.Agreement
import UiTemplate.Proofs.Expression.References

/-!
What a build can depend on. A template refers to a context through the strings
in its props, at any depth, and through the placeholders in its texts; it refers
to a registry through its types. Nothing else of a context or a registry makes a
difference to a build with the same options, whether it succeeds or fails.
-/

namespace UiTemplate

/-- What a template refers to, anywhere in its tree. -/
inductive Node.Asks (node : Node) : Reference → Prop where
  | prop {path : NodePath} {target : Node} {props : List (String × Json)} {name s : String}
    {value : Json} {asked : Reference} (hat : node.at? path = some target)
    (hprops : target.props = some props) (hmember : (name, value) ∈ props)
    (hs : value.Mentions s) (hasks : Expression.Asks s.toList asked) : Asks node asked
  | text {path : NodePath} {target : Node} {s placeholder : String}
    (hat : node.at? path = some target) (hleaf : target.children = .leaf (.string s))
    (hpath : TextPart.HasPath s.toList placeholder) : Asks node (.shown placeholder)

namespace Interpreter

variable {E : Type} {first second : Interpreter E} {node : Node}

/-- A leaf depends on the texts shown for its placeholders alone. -/
theorem bindLeaf_congr {first second : Context} {leaf : Json}
    (h : ∀ s path, leaf = .string s → TextPart.HasPath s.toList path →
      first.AgreeOn second (.shown path)) : bindLeaf first leaf = bindLeaf second leaf := by
  cases leaf with
  | string s =>
    have hfilled : interpolate first s.toList = interpolate second s.toList :=
      interpolate_congr fun path => h s path rfl
    rw [bindLeaf, bindLeaf, hfilled]
  | null => rfl
  | bool b => rfl
  | number n => rfl
  | array items => rfl
  | object members => rfl

/-- Two builds of a template are the same if the contexts agree on everything
that the template refers to and the registries on the types that occur in it. -/
theorem build_of_agreement
    (hcontext : ∀ asked, node.Asks asked → first.context.AgreeOn second.context asked)
    (hregistry : ∀ path target, node.at? path = some target →
      first.registry.get? target.type = second.registry.get? target.type)
    (hoptions : first.options = second.options) (hkeys : first.options.keys ≠ .random) :
    first.build node = second.build node := by
  apply buildAt_congr
  intro path target hat
  refine ⟨hregistry path target hat, ?_, ?_⟩
  · have hbind : bindProps first.context target.props = bindProps second.context target.props := by
      cases hprops : target.props with
      | none => rfl
      | some props =>
        apply bindMembers_congr props
        intro name value hmember s hs asked hasks
        exact hcontext asked (.prop hat hprops hmember hs hasks)
    rw [Interpreter.props, Interpreter.props, hbind, assignKey_congr hoptions hkeys]
  · intro leaf hleaf
    apply bindLeaf_congr
    rintro s path rfl hpath
    exact hcontext _ (.text hat hleaf hpath)

/-- A label that shows how many are left and orders one when it is pressed. -/
def stockLabel : Node :=
  ((Node.ofType "Label").withProp "onPress" (.string "function::order(prop::item)")).withText
    (.string "$\x7btext::left\x7d left")

/-- Labels and one other type, in a context with a count and a price. -/
def shop (left price : Value) (other : String) : Interpreter (Props × Option String) where
  context := ⟨[("item", .string "tea"), ("left", left), ("order", .function ⟨1, "order"⟩),
    ("price", price)]⟩
  registry := (Registry.empty.register other fun props _ => (props, none)).register "Label"
    fun props content => (props, content.text?)

theorem references_order :
    (Expression.parse "function::order(prop::item)".toList).references =
      [.value "order", .value "item"] := rfl

/-- The text of the label has a single placeholder. -/
theorem hasPath_left {path : String}
    (h : TextPart.HasPath "$\x7btext::left\x7d left".toList path) : path = "left" := by
  have hsplit : TextPart.IsSplit "$\x7btext::left\x7d left".toList [] "left".toList
      " left".toList := TextPart.first?_eq_some_iff.1 rfl
  have hrest : ¬ TextPart.HasPlaceholder " left".toList := TextPart.first?_eq_none_iff.1 rfl
  rw [TextPart.hasPath_iff, TextPart.parse_of_isSplit hsplit,
    TextPart.parse_of_not_hasPlaceholder hrest] at h
  simpa using h

/-- A count that is shown alike, the price and the other type make no difference to the
label. -/
theorem build_of_agreement_shop :
    (shop (.bool true) .null "Icon").context.get? "left" ≠
        (shop (.string "true") (.bool false) "Frame").context.get? "left" ∧
      (shop (.bool true) .null "Icon").build stockLabel =
        (shop (.string "true") (.bool false) "Frame").build stockLabel := by
  have honly : ∀ path target, stockLabel.at? path = some target → target = stockLabel := by
    intro path target hat
    cases path with
    | nil => exact (Option.some.inj hat).symm
    | cons index path => cases hat
  refine ⟨fun h => Value.noConfusion (Option.some.inj h), build_of_agreement ?_ ?_ rfl (by decide)⟩
  · intro asked hasks
    cases hasks with
    | prop hat hprops hmember hs hasks =>
      obtain rfl := honly _ _ hat
      cases hprops
      cases List.mem_singleton.1 hmember
      cases hs
      rw [Expression.asks_iff, references_order, List.mem_cons, List.mem_singleton] at hasks
      rcases hasks with rfl | rfl
      · rfl
      · rfl
    | text hat hleaf hpath =>
      obtain rfl := honly _ _ hat
      cases hleaf
      obtain rfl := hasPath_left hpath
      -- The two counts differ, but they are shown alike
      rfl
  · intro path target hat
    obtain rfl := honly _ _ hat
    rfl

end Interpreter

end UiTemplate
