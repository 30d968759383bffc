import UiTemplate.Build.Options
import UiTemplate.Text

/-!
The command line. Words are read from left to right, and the first one that
cannot be right ends the reading. An option's value is the next word or follows
an equals sign; after two hyphens every word stands for itself.
-/

namespace UiTemplate

inductive Command where
  | render (file : String) (context : Option String) (keys : KeyStrategy)
  | fetch (path : String) (base settings context : Option String)
  | serve (directory : String) (port : Nat)
deriving DecidableEq

namespace Command

inductive Refusal where
  | usage
  /-- Help is asked for, or nothing at all is said. -/
  | help
  | version
deriving DecidableEq

/-- What a command may be given: options by name and words by position, each
with the test that a value has to pass. -/
structure Grammar where
  options : List (String × (String → Bool))
  words : List (String → Bool)

structure Given where
  options : List (String × String)
  /-- The words, in reverse. -/
  words : List String

def Given.nothing : Given := ⟨[], []⟩

def anyText (_ : String) : Bool := true

def pathText (value : String) : Bool := !value.isEmpty

def keys? (value : String) : Option KeyStrategy :=
  if value = "tree-path" then some .treePath
  else if value = "random" then some .random
  else if value = "none" then some .none
  else Option.none

/-- A port: digits, after a sign if wanted. -/
def port? (value : String) : Option Nat :=
  let (negative, digits) :=
    match value.toList with
    | '-' :: rest => (true, rest)
    | '+' :: rest => (false, rest)
    | text => (false, text)
  if digits.isEmpty || !digits.all Char.isDigit then none
  else
    let n := Text.digitsValue digits
    if n < UInt16.size && (!negative || n == 0) then some n else none

def renderGrammar : Grammar where
  options := [("context", anyText), ("keys", fun value => (keys? value).isSome)]
  words := [pathText]

def fetchGrammar : Grammar where
  options := [("base", anyText), ("config", pathText), ("context", anyText)]
  words := [anyText]

def serveGrammar : Grammar where
  options := [("port", fun value => (port? value).isSome)]
  words := [pathText]

/-- How a word reads where options may stand. -/
inductive Word where
  /-- Two hyphens. -/
  | escape
  /-- Two hyphens, a name, and perhaps a value after an equals sign. -/
  | long (name : String) (value : Option String)
  /-- A hyphen and letters, of which the first is given. -/
  | short (first : Char)
  | plain

def Word.of (word : String) : Word :=
  match word.toList with
  | ['-', '-'] => .escape
  | '-' :: '-' :: text =>
    match Text.cut? ['='] text with
    | none => .long (String.ofList text) none
    | some (name, value) => .long (String.ofList name) (some (String.ofList value))
  | '-' :: first :: _ => .short first
  | _ => .plain

/-- One option more. It must be known, new, and have a fitting value. -/
def Given.setOption (grammar : Grammar) (given : Given) (name value : String) :
    Except Refusal Given :=
  match Fields.get? name grammar.options with
  | none => .error .usage
  | some fits =>
    if !fits value || Fields.contains name given.options then .error .usage
    else .ok { given with options := (name, value) :: given.options }

/-- One word more. There must be a place for it, and it must fit. -/
def Given.addWord (grammar : Grammar) (given : Given) (word : String) :
    Except Refusal Given :=
  match grammar.words[given.words.length]? with
  | none => .error .usage
  | some fits =>
    if fits word then .ok { given with words := word :: given.words } else .error .usage

/-- Reads what a command is given. An option without a value takes the next
word, which must not look like an option itself. -/
def read (grammar : Grammar) (given : Given) : List String → Except Refusal Given
  | [] => .ok given
  | word :: rest =>
    match Word.of word with
    | .escape => rest.foldlM (Given.addWord grammar) given
    | .short first => if first = 'h' then .error .help else .error .usage
    | .long name (some value) => do
      let given ← given.setOption grammar name value
      read grammar given rest
    | .long name none =>
      if name = "help" then .error .help
      else
        match rest with
        | [] => .error .usage
        | value :: rest =>
          match Word.of value with
          | .plain => do
            let given ← given.setOption grammar name value
            read grammar given rest
          | _ => .error .usage
    | .plain => do
      let given ← given.addWord grammar word
      read grammar given rest

def Given.option? (given : Given) (name : String) : Option String :=
  Fields.get? name given.options

def renderOf (given : Given) : Except Refusal Command :=
  match given.words with
  | [file] =>
    let keys := ((given.option? "keys").bind keys?).getD .treePath
    .ok (.render file (given.option? "context") keys)
  | _ => .error .usage

def fetchOf (given : Given) : Except Refusal Command :=
  match given.words with
  | [path] =>
    .ok (.fetch path (given.option? "base") (given.option? "config") (given.option? "context"))
  | _ => .error .usage

def serveOf (given : Given) : Except Refusal Command :=
  let directory := given.words.head?.getD "."
  let port := ((given.option? "port").bind port?).getD 3000
  .ok (.serve directory port)

def helpTopics : List String := ["render", "fetch", "serve", "help"]

def parse (words : List String) : Except Refusal Command :=
  match words with
  | [] => .error .help
  | word :: rest =>
    match Word.of word with
    | .escape => if rest.isEmpty then .error .help else .error .usage
    | .short first =>
      if first = 'h' then .error .help
      else if first = 'V' then .error .version
      else .error .usage
    | .long name none =>
      if name = "help" then .error .help
      else if name = "version" then .error .version
      else .error .usage
    | .long _ (some _) => .error .usage
    | .plain =>
      if word = "render" then (read renderGrammar .nothing rest).bind renderOf
      else if word = "fetch" then (read fetchGrammar .nothing rest).bind fetchOf
      else if word = "serve" then (read serveGrammar .nothing rest).bind serveOf
      else if word = "help" then
        match rest with
        | [] => .error .help
        | [topic] => if helpTopics.contains topic then .error .help else .error .usage
        | _ => .error .usage
      else .error .usage

end Command

end UiTemplate
