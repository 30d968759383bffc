import UiTemplate.Json
import UiTemplate.Text

/-!
The values of a context: what documents can hold, together with functions of
the host and calls of them that wait to be made. A function is known by a
handle. What it does is the business of the host, who supplies it when a call is
made; so values can be compared, and evaluating a template calls nothing.
-/

namespace UiTemplate

/-- A function of the host, which is known by its handle. A handle is made with a
name and keeps it, so functions with the same handle have the same name too, and
functions are compared by both. -/
structure Callable where
  id : Nat
  name : String
deriving DecidableEq

mutual

inductive Value where
  | null
  | bool (b : Bool)
  | number (n : Number)
  | string (s : String)
  | array (items : List Value)
  | object (members : List (String × Value))
  | function (callable : Callable)
  | invocation (call : Invocation)

/-- A call that waits for an event. It does nothing, or it calls its target
with the arguments of the event, or with arguments bound beforehand. -/
inductive Invocation where
  | noop
  | forward (target : Callable)
  | bound (target : Callable) (arguments : List Value)

end

instance : Inhabited Value := ⟨.null⟩

abbrev Host : Type := Callable → List Value → Value

namespace Invocation

def target? : Invocation → Option Callable
  | .noop => none
  | .forward target => some target
  | .bound target _ => some target

def arguments? : Invocation → Option (List Value)
  | .bound _ arguments => some arguments
  | _ => none

def isNoop (call : Invocation) : Bool :=
  call.target?.isNone

/-- The call that is made when an event with these arguments comes in: the
function and what it is given. At most one call is made. -/
def call? (call : Invocation) (event : List Value) : Option (Callable × List Value) :=
  match call with
  | .noop => none
  | .forward target => some (target, event)
  | .bound target arguments => some (target, arguments)

/-- The result of the call, null if none is made. -/
def invoke (call : Invocation) (host : Host) (event : List Value) : Value :=
  match call.call? event with
  | none => .null
  | some (target, arguments) => host target arguments

end Invocation

namespace Value

def members : Value → List (String × Value)
  | .object members => members
  | _ => []

def isNull : Value → Bool
  | .null => true
  | _ => false

def callable? : Value → Option Callable
  | .function callable => some callable
  | _ => none

def invocation? : Value → Option Invocation
  | .invocation call => some call
  | _ => none

/-- What a value looks like inside a text. Only strings, numbers and truth
values can be shown. -/
def text? : Value → Option String
  | .string s => some s
  | .number n => some (String.ofList n.textChars)
  | .bool true => some "true"
  | .bool false => some "false"
  | _ => none

mutual

def ofJson : Json → Value
  | .null => .null
  | .bool b => .bool b
  | .number n => .number n
  | .string s => .string s
  | .array items => .array (ofJsonItems items)
  | .object members => .object (ofJsonMembers members)

def ofJsonItems : List Json → List Value
  | [] => []
  | item :: items => ofJson item :: ofJsonItems items

def ofJsonMembers : List (String × Json) → List (String × Value)
  | [] => []
  | (name, value) :: members => (name, ofJson value) :: ofJsonMembers members

end

mutual

/-- The document that a value can be written as. Functions and calls have no
place in a document and become null. -/
def toJson : Value → Json
  | .null | .function _ | .invocation _ => .null
  | .bool b => .bool b
  | .number n => .number n
  | .string s => .string s
  | .array items => .array (toJsonItems items)
  | .object members => .object (toJsonMembers members)

def toJsonItems : List Value → List Json
  | [] => []
  | item :: items => item.toJson :: toJsonItems items

def toJsonMembers : List (String × Value) → List (String × Json)
  | [] => []
  | (name, value) :: members => (name, value.toJson) :: toJsonMembers members

end

end Value

mutual

/-- Equality of values: equal data, the same functions, and calls of the same
functions with equal arguments. Objects are compared member by member, which
is right because their members are in order. -/
def Value.same : Value → Value → Bool
  | .null, .null => true
  | .bool a, .bool b => a == b
  | .number a, .number b => a.same b
  | .string a, .string b => a == b
  | .array xs, .array ys => sameValues xs ys
  | .object xs, .object ys => sameFields xs ys
  | .function f, .function g => f == g
  | .invocation a, .invocation b => a.same b
  | _, _ => false

def Invocation.same : Invocation → Invocation → Bool
  | .noop, .noop => true
  | .forward f, .forward g => f == g
  | .bound f xs, .bound g ys => f == g && sameValues xs ys
  | _, _ => false

def sameValues : List Value → List Value → Bool
  | [], [] => true
  | x :: xs, y :: ys => x.same y && sameValues xs ys
  | _, _ => false

def sameFields : List (String × Value) → List (String × Value) → Bool
  | [], [] => true
  | (j, x) :: xs, (k, y) :: ys => j == k && x.same y && sameFields xs ys
  | _, _ => false

end

end UiTemplate
