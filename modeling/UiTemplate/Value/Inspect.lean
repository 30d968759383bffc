import UiTemplate.Text.Quoted
import UiTemplate.Value

/-!
The text that shows a value to a developer. Unlike the text of a document it
shows functions and calls, and it names the kind of every value that is not a
container.
-/

namespace UiTemplate

mutual

def Value.inspectChars : Value → List Char
  | .null => "Null".toList
  | .bool true => "Bool(true)".toList
  | .bool false => "Bool(false)".toList
  | .number n => "Number(".toList ++ n.jsonChars ++ [')']
  | .string s => "String(".toList ++ Text.quoted s ++ [')']
  | .array items => '[' :: (inspectItems items ++ [']'])
  | .object members => '\x7b' :: (inspectMembers members ++ ['\x7d'])
  | .function callable => "Function(".toList ++ callable.name.toList ++ [')']
  | .invocation call => call.inspectChars

def Invocation.inspectChars : Invocation → List Char
  | .noop => "Invocation(noop)".toList
  | .forward target => "Invocation(".toList ++ target.name.toList ++ [')']
  | .bound target arguments =>
    "Invocation(".toList ++ target.name.toList ++ ", [".toList ++
      inspectItems arguments ++ "])".toList

def inspectItems : List Value → List Char
  | [] => []
  | [item] => item.inspectChars
  | item :: items => item.inspectChars ++ ", ".toList ++ inspectItems items

def inspectMembers : List (String × Value) → List Char
  | [] => []
  | [(name, value)] => Text.quoted name ++ ": ".toList ++ value.inspectChars
  | (name, value) :: members =>
    Text.quoted name ++ ": ".toList ++ value.inspectChars ++ ", ".toList ++
      inspectMembers members

end

def Value.inspect (value : Value) : String :=
  String.ofList value.inspectChars

end UiTemplate
