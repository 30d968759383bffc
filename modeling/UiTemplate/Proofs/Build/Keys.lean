import UiTemplate.Proofs.Build.Order
import UiTemplate.Proofs.Build.Plans

/-!
What the assignment of keys does to a build, and what it leaves alone. The
decision is taken at every node after its props have been bound: a node that has
bound a key of its own keeps it, and any other node gets one from its position
or at random, or none at all. Nothing but the key prop of such nodes tells two
strategies apart.
-/

namespace UiTemplate

namespace Fields

variable {α : Type}

def without (name : String) (fields : Fields α) : Fields α :=
  fields.filter fun field => field.1 ≠ name

theorem without_insert (name : String) (value : α) (fields : Fields α) :
    without name (fields.insert name value) = without name fields := by
  induction fields with
  | nil => simp [without, insert]
  | cons field rest ih =>
    obtain ⟨key, old⟩ := field
    rw [insert]
    split
    · next hkey => simp [without, hkey]
    · next hkey =>
      split
      · simp [without]
      · simpa [without, hkey] using ih

end Fields

namespace Interpreter

variable {E : Type} {interpreter : Interpreter E} {view : View E} {path : NodePath} {node : Node}

/-- The key that a node binds itself, which may be anything but null. -/
def boundKey? (interpreter : Interpreter E) (node : Node) : Option Value :=
  (Fields.get? interpreter.options.keyProp (bindProps interpreter.context node.props)).filter
    fun value => !value.isNull

/-- The key for a position, if keys are assigned at all. -/
def assignedKey? (interpreter : Interpreter E) (path : NodePath) : Option String :=
  match interpreter.options.keys with
  | .treePath => some path.key
  | .random => some (interpreter.mint path)
  | .none => none

/-- A key counts as given if it is bound to something other than null. -/
theorem boundKey?_eq_some_iff {key : Value} : interpreter.boundKey? node = some key ↔
    Fields.get? interpreter.options.keyProp (bindProps interpreter.context node.props) = some key ∧
      key.isNull = false := by
  rw [boundKey?, Option.filter_eq_some_iff, Bool.not_eq_true']

/-- A key that a node binds itself is the one that it has. -/
theorem props_of_boundKey? {key : Value} (h : interpreter.boundKey? node = some key)
    (path : NodePath) :
    interpreter.props path node.props = bindProps interpreter.context node.props := by
  obtain ⟨hget, hkey⟩ := boundKey?_eq_some_iff.1 h
  rw [props, assignKey, hget]
  cases key with
  | null => cases hkey
  | bool | number | string | array | object | function | invocation => rfl

/-- A node that binds no key itself gets the one for its position. -/
theorem props_of_boundKey?_eq_none (h : interpreter.boundKey? node = none) (path : NodePath) :
    interpreter.props path node.props =
      match interpreter.assignedKey? path with
      | some key => Fields.insert interpreter.options.keyProp (.string key)
          (bindProps interpreter.context node.props)
      | none => bindProps interpreter.context node.props := by
  rw [boundKey?, Option.filter_eq_none_iff] at h
  rw [props, assignKey, assignedKey?]
  cases hget : Fields.get? interpreter.options.keyProp
      (bindProps interpreter.context node.props) with
  | none => cases interpreter.options.keys with
    | treePath | random | none => rfl
  | some value =>
    have hnull := h value hget
    cases value with
    | null => cases interpreter.options.keys with
      | treePath | random | none => rfl
    | bool | number | string | array | object | function | invocation =>
      exact absurd rfl hnull

/-- The interpreter with another strategy and other random keys. -/
def withKeys (interpreter : Interpreter E) (keys : KeyStrategy) (mint : NodePath → String) :
    Interpreter E :=
  { interpreter with options := { interpreter.options with keys }, mint }

/-- What one node becomes in two builds with different strategies: the same type,
content of the same outline, and the same props up to the key prop. Only where
the node binds no key itself may the key prop differ. -/
structure SameButKey (interpreter : Interpreter E) (view : View E) (node : Node)
    (first second : E) : Prop where
  type : view.type first = view.type second
  content : (view.content first).outline = (view.content second).outline
  others : Fields.without interpreter.options.keyProp (view.props first) =
    Fields.without interpreter.options.keyProp (view.props second)
  bound : interpreter.boundKey? node ≠ none → view.props first = view.props second

/-- What the strategy of a build makes of the key of a node. -/
structure Keyed (interpreter : Interpreter E) (view : View E) (node : Node) (element : E) :
    Prop where
  untouched : interpreter.options.keys = .none →
    view.props element = bindProps interpreter.context node.props
  present : interpreter.options.keys ≠ .none →
    ∃ key, Fields.get? interpreter.options.keyProp (view.props element) = some key ∧
      key.isNull = false
  kept : ∀ key, interpreter.boundKey? node = some key →
    Fields.get? interpreter.options.keyProp (view.props element) = some key

/-- Apart from the key the props are the bound ones. -/
theorem without_props (interpreter : Interpreter E) (node : Node) (path : NodePath) :
    Fields.without interpreter.options.keyProp (interpreter.props path node.props) =
      Fields.without interpreter.options.keyProp (bindProps interpreter.context node.props) := by
  cases hbound : interpreter.boundKey? node with
  | some key => rw [props_of_boundKey? hbound]
  | none =>
    rw [props_of_boundKey?_eq_none hbound]
    cases interpreter.assignedKey? path with
    | none => rfl
    | some key => exact Fields.without_insert _ _ _

theorem assignedKey?_of_none (h : interpreter.options.keys = .none) (path : NodePath) :
    interpreter.assignedKey? path = none := by
  rw [assignedKey?, h]

theorem assignedKey?_of_ne_none (h : interpreter.options.keys ≠ .none) (path : NodePath) :
    ∃ key, interpreter.assignedKey? path = some key := by
  rw [assignedKey?]
  cases hkeys : interpreter.options.keys with
  | treePath => exact ⟨_, rfl⟩
  | random => exact ⟨_, rfl⟩
  | none => exact absurd hkeys h

/-- The strategy that assigns nothing leaves the bound props alone, a null key included. -/
theorem props_of_none (h : interpreter.options.keys = .none) (node : Node) (path : NodePath) :
    interpreter.props path node.props = bindProps interpreter.context node.props := by
  cases hbound : interpreter.boundKey? node with
  | some key => exact props_of_boundKey? hbound path
  | none => rw [props_of_boundKey?_eq_none hbound, assignedKey?_of_none h]

/-- A node that binds no key itself has the assigned one. -/
theorem get?_props_of_assignedKey? {key : String} (hbound : interpreter.boundKey? node = none)
    (hassigned : interpreter.assignedKey? path = some key) :
    Fields.get? interpreter.options.keyProp (interpreter.props path node.props) =
      some (.string key) := by
  rw [props_of_boundKey?_eq_none hbound, hassigned]
  exact Fields.get?_insert_self _ _ _

variable {element : E}

/-- An element has the key its node supplies, or else the one assigned to its path. -/
theorem keyed_of_buildAt (hkeeps : interpreter.registry.Keeps view)
    (h : (interpreter.buildAt path node).result = .ok element) :
    interpreter.Keyed view node element := by
  obtain ⟨_, hprops, _⟩ := view_of_buildAt hkeeps h
  constructor
  case untouched =>
    intro hnone
    rw [hprops, props_of_none hnone]
  case present =>
    intro hkeys
    rw [hprops]
    cases hbound : interpreter.boundKey? node with
    | some key =>
      rw [props_of_boundKey? hbound]
      exact ⟨key, boundKey?_eq_some_iff.1 hbound⟩
    | none =>
      obtain ⟨key, hassigned⟩ := assignedKey?_of_ne_none hkeys path
      exact ⟨.string key, get?_props_of_assignedKey? hbound hassigned, rfl⟩
  case kept =>
    intro key hbound
    rw [hprops, props_of_boundKey? hbound]
    exact (boundKey?_eq_some_iff.1 hbound).1

/-- Neither the strategy nor the position makes a difference to anything but the
key. -/
theorem sameButKey_of_buildAt (hkeeps : interpreter.registry.Keeps view) {keys : KeyStrategy}
    {mint : NodePath → String} {other : NodePath} {first second : E}
    (hfirst : (interpreter.buildAt path node).result = .ok first)
    (hsecond : ((interpreter.withKeys keys mint).buildAt other node).result = .ok second) :
    interpreter.SameButKey view node first second := by
  have hkeeps' : (interpreter.withKeys keys mint).registry.Keeps view := hkeeps
  obtain ⟨htype, hprops, _⟩ := view_of_buildAt hkeeps hfirst
  obtain ⟨htype', hprops', _⟩ := view_of_buildAt hkeeps' hsecond
  constructor
  case type => rw [htype, htype']
  case content =>
    rw [outline_of_buildAt hkeeps hfirst, outline_of_buildAt hkeeps' hsecond]
    rfl
  case others =>
    rw [hprops, hprops', without_props]
    exact (without_props (interpreter.withKeys keys mint) node other).symm
  case bound =>
    intro hbound
    obtain ⟨key, hkey⟩ := Option.ne_none_iff_exists'.1 hbound
    have hkey' : (interpreter.withKeys keys mint).boundKey? node = some key := hkey
    rw [hprops, hprops', props_of_boundKey? hkey, props_of_boundKey? hkey']
    rfl

/-- For one template, context and registry the strategy for keys does not matter
to whether a build succeeds or how it fails, and trees that are built with two
strategies are the same but for key props that the template leaves open. With no
strategy the props are just the bound ones; with another one every node has a
key; and a key that a node binds itself always stays. -/
theorem strategies_differ_only_in_keys (interpreter : Interpreter E) {view : View E}
    (hkeeps : interpreter.registry.Keeps view) (node : Node) (keys : KeyStrategy)
    (mint : NodePath → String) :
    ((∃ error, (interpreter.build node).result = .error error ∧
        ((interpreter.withKeys keys mint).build node).result = .error error) ∨
      ∃ first second, (interpreter.build node).result = .ok first ∧
        ((interpreter.withKeys keys mint).build node).result = .ok second ∧
        view.Pointwise (interpreter.SameButKey view) node first second) ∧
    ∀ element, (interpreter.build node).result = .ok element →
      ∀ path target, node.at? path = some target →
        ∃ part, view.at? element path = some part ∧ interpreter.Keyed view target part := by
  refine ⟨?_, ?_⟩
  · cases hfirst : interpreter.firstUnknown? node with
    | some visit =>
      have hother : (interpreter.withKeys keys mint).firstUnknown? node = some visit := hfirst
      exact .inl ⟨_, result_eq_error_iff.2 ⟨_, _, hfirst, rfl⟩,
        result_eq_error_iff.2 ⟨_, _, hother, rfl⟩⟩
    | none =>
      have hother : (interpreter.withKeys keys mint).firstUnknown? node = none := hfirst
      obtain ⟨first, hbuild⟩ := exists_ok_of_firstUnknown?_eq_none hfirst
      obtain ⟨second, hbuild'⟩ := exists_ok_of_firstUnknown?_eq_none hother
      have hkeeps' : (interpreter.withKeys keys mint).registry.Keeps view := hkeeps
      refine .inr ⟨first, second, hbuild, hbuild', ?_⟩
      apply pointwise_of_buildAt hkeeps hkeeps' hbuild hbuild'
      intro below target part part' _ hpart hpart'
      exact sameButKey_of_buildAt hkeeps hpart hpart'
  · intro element hbuild path target hat
    obtain ⟨part, hpart, hresult⟩ := at?_of_buildAt hkeeps hbuild hat
    exact ⟨part, hpart, keyed_of_buildAt hkeeps hresult⟩

/-- Groups and labels in a context that offers a name for one of them, the same
that the root of a tree gets for its position. -/
def naming : Interpreter Nat :=
  { counting with context := ⟨[("name", .string "0")]⟩ }

/-- A group whose key refers to nothing and in it a label that has a key. -/
def ownKey : Node :=
  ((Node.ofType "Group").withProp "key" (.string "prop::missing")).withChild
    ((Node.ofType "Label").withProp "key" (.string "prop::name"))

/-- The missing key of the group is filled in by one of the strategies and null under the
other. -/
theorem strategies_differ_only_in_keys_ownKey :
    naming.planned.registry.Keeps Plan.view ∧
      ∃ first second : Plan, (naming.planned.build ownKey).result = .ok first ∧
        ((naming.planned.withKeys .none NodePath.key).build ownKey).result = .ok second ∧
        Plan.view.Pointwise (naming.planned.SameButKey Plan.view) ownKey first second ∧
        first.key? "key" [] = some (.string "0") ∧ second.key? "key" [] = some .null ∧
        first.key? "key" [0] = some (.string "0") ∧ second.key? "key" [0] = some (.string "0") := by
  have hkeeps : naming.planned.registry.Keeps Plan.view := naming.registry.keeps_planned
  obtain ⟨hruns, _⟩ :=
    strategies_differ_only_in_keys naming.planned hkeeps ownKey .none NodePath.key
  rcases hruns with ⟨error, herror, _⟩ | ⟨first, second, hfirst, hsecond, hsame⟩
  · cases herror
  · refine ⟨hkeeps, first, second, hfirst, hsecond, hsame, ?_⟩
    cases hfirst
    cases hsecond
    exact ⟨rfl, rfl, rfl, rfl⟩

end Interpreter

end UiTemplate
