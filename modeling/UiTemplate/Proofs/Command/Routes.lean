import UiTemplate.Command.Run
import UiTemplate.Proofs.Build.Agreement
import UiTemplate.Proofs.Build.Order
import UiTemplate.Proofs.Html.RoundTrip
import UiTemplate.Proofs.Text.Utf8

/-!
The two ways to the markup of a template: from a file, and from a server that
answers with the text of that file. They get to the text differently, read it
with different functions and build with options that come from different places.
Each is opened once, for a text that is a template and for one that is not, and
after that only the text and the build count. What differs is what is printed
when there is no template: nothing, or a mark that shows the message.
-/

namespace UiTemplate

namespace Html

theorem read?_errorMark {message : String} (h : message ≠ "") :
    Reader.read? (errorMark message).render = some (errorMark message) := by
  rw [Reader.read?_render rfl]
  have htext : (some message).filter (· ≠ "") = some message := by
    rw [Option.filter_some, if_pos (by simpa using h)]
  have hname : isName "data-state" = true := by decide
  have hvoid : voidTags.contains "div" = false := by decide
  simp only [errorMark, Element.normalize, Element.normalizeAll, htext, hname, hvoid,
    List.filter_cons_of_pos, List.filter_nil, Bool.false_eq_true, if_false]

end Html

theorem append_ne_empty_of_left {front back : String} (h : front ≠ "") : front ++ back ≠ "" :=
  fun hempty => h (String.append_eq_empty_iff.1 hempty).1

theorem append_ne_empty_of_right {front back : String} (h : back ≠ "") : front ++ back ≠ "" :=
  fun hempty => h (String.append_eq_empty_iff.1 hempty).2

/-- Every error has something to say. -/
theorem FetchError.message_ne_empty (error : FetchError) : error.message ≠ "" := by
  cases error with
  | transport method url reason =>
    exact append_ne_empty_of_left (append_ne_empty_of_right (by decide))
  | status method url code =>
    exact append_ne_empty_of_left (append_ne_empty_of_right (by decide))
  | notFound path => exact append_ne_empty_of_left (by decide)
  | malformed origin reason =>
    exact append_ne_empty_of_left (append_ne_empty_of_right (by decide))
  | crashed reason => exact append_ne_empty_of_left (by decide)

theorem AcquisitionError.message_ne_empty (error : AcquisitionError) : error.message ≠ "" := by
  cases error with
  | fetch error => exact error.message_ne_empty
  | template error => exact append_ne_empty_of_left (by decide)

namespace Command

variable {world : World} {argument base config : Option String} {context : Context}
  {given settings : FetchSettings} {file path text : String} {node : Node}

def World.HasText (world : World) (path text : String) : Prop :=
  world.files.find path = .ok (.file text.toUTF8)

theorem readFile_of_hasText (h : world.HasText file text) : readFile world file = .ok text := by
  rw [readFile, FileSystem.readText, h]
  simp only [Text.Utf8.decode?_toUTF8]
  rfl

/-- What a context argument gives: nothing, the object in a file of that name, or
the object that the words are if there is no such file. -/
inductive GivesContext (world : World) : Option String → Context → Prop where
  | absent : GivesContext world none .empty
  | inFile {words text : String} {members : List (String × Json)}
      (file : world.HasText words text) (object : Json.ofText? text = some (.object members)) :
      GivesContext world (some words) (.ofJson (.object members))
  | inline {words : String} {members : List (String × Json)}
      (noFile : world.files.isFile words = false)
      (object : Json.ofText? words = some (.object members)) :
      GivesContext world (some words) (.ofJson (.object members))

/-- All three ways to give a context are read as meant. -/
theorem readContext_of_givesContext (h : GivesContext world argument context) :
    readContext world argument = .ok context := by
  cases h with
  | absent => rfl
  | @inFile words text members file object =>
    have hisFile : world.files.isFile words = true := by rw [FileSystem.isFile, file]
    have hjson : readContextJson world words = .ok (.object members) := by
      rw [readContextJson, if_pos hisFile, readFile_of_hasText file]
      simp only [bind, Except.bind, object]
      rfl
    rw [readContext, hjson]
    rfl
  | @inline words members noFile object =>
    have hjson : readContextJson world words = .ok (.object members) := by
      rw [readContextJson, if_neg (by simp [noFile]), object]
    rw [readContext, hjson]
    rfl

/-- What a settings argument gives: the defaults, or the settings in a file of
that name. -/
inductive GivesSettings (world : World) : Option String → FetchSettings → Prop where
  | absent : GivesSettings world none {}
  | inFile {name text : String} {settings : FetchSettings}
      (file : world.HasText name text) (valid : FetchSettings.ofText? text = some settings) :
      GivesSettings world (some name) settings

/-- A base address on the command line goes before the one in the settings. -/
theorem readSettings_of_givesSettings (h : GivesSettings world config given)
    (hbase : base.getD given.baseUrl ≠ "") :
    readSettings world base config = .ok { given with baseUrl := base.getD given.baseUrl } := by
  have hempty : (base.getD given.baseUrl).isEmpty = false := by simpa using hbase
  cases h with
  | absent =>
    simp only [readSettings, bind, Except.bind, pure, Except.pure, hempty]
    rfl
  | inFile file valid =>
    simp only [readSettings, readFile_of_hasText file, valid, bind, Except.bind, pure,
      Except.pure, hempty]
    rfl

/-- How a template is built where nothing is said about it. -/
def standard (context : Context) : Interpreter Html.Element :=
  { context, registry := Html.primitives }

/-- What comes of a template once it is there: its markup, or the fault in it. -/
def printed (context : Context) (node : Node) : Outcome :=
  match ((standard context).build node).result with
  | .error error => .fail (.build error)
  | .ok element => .print element.render

/-- What is random in a world does not count where keys come from positions. -/
theorem build_standard (world : World) (context : Context) (node : Node) :
    Interpreter.build { standard context with options := { keys := .treePath }, mint := world.mint }
      node = (standard context).build node := by
  apply Interpreter.build_eq_of_keys
  · rfl
  · rfl
  · rfl
  · exact KeyStrategy.noConfusion

/-- A rendering that has read its input prints the template, if there is one. -/
theorem run_render (hfile : world.HasText file text)
    (hcontext : readContext world argument = .ok context) :
    run world (.render file argument .treePath) =
      match Node.ofText text with
      | .error error => .fail (.badTemplate file error)
      | .ok node => printed context node := by
  simp only [run, renderFile, readFile_of_hasText hfile, hcontext, bind, Except.bind]
  cases Node.ofText text with
  | error error => rfl
  | ok node =>
    have htext : (Except.ok node).mapError (Failure.badTemplate file) = .ok node := rfl
    have hbuild := build_standard world context node
    simp only [standard] at hbuild
    simp only [htext, hbuild, printed, standard]
    cases (Interpreter.build { context, registry := Html.primitives } node).result with
    | error error => rfl
    | ok element => rfl

/-- A fetch that has read its input prints what the acquisition has come to. -/
theorem run_fetch (hsettings : readSettings world base config = .ok settings)
    (hcontext : readContext world argument = .ok context) :
    run world (.fetch path base config argument) =
      match acquire world settings path with
      | .pending => .print Html.loadingMark.render
      | .failed error =>
        { lines := [(Html.errorMark error.message).render], result := .error (.acquisition error) }
      | .ready node => printed context node := by
  simp only [run, runFetch, hsettings, hcontext, bind, Except.bind]
  cases acquire world settings path with
  | pending => rfl
  | failed error => rfl
  | ready node =>
    simp only [Html.renderState, printed, standard]
    cases (Interpreter.build { context, registry := Html.primitives } node).result with
    | error error => rfl
    | ok element => rfl

/-- The server of the settings answers a request for the path with a text, and
the text arrives as it was sent. -/
def World.Serves (world : World) (settings : FetchSettings) (path text : String) : Prop :=
  world.network (Http.request settings path) = .ok ⟨200, .ok text.toUTF8.data.toList⟩

/-- An answer that arrives is settled like the document in it. -/
theorem acquire_of_serves (h : world.Serves settings path text) :
    acquire world settings path =
      (AttemptOutcome.answered (documentFrom (settings.urlFor path) text)).settle := by
  have hfetch : Http.fetch settings world.network path =
      documentFrom (settings.urlFor path) text := by
    rw [Http.fetch, h]
    simp only [Http.document, Text.Utf8.decodeLossy_toUTF8]
    rfl
  rw [acquire, hfetch]
  rfl

/-- An acquisition reads a text as a file is read. -/
theorem settle_of_ofText (origin : String) (h : Node.ofText text = .ok node) :
    (AttemptOutcome.answered (documentFrom origin text)).settle = .ready node := by
  rw [documentFrom]
  rw [Node.ofText] at h
  cases hjson : Json.ofText? text with
  | none =>
    rw [hjson] at h
    cases h
  | some json =>
    rw [hjson] at h
    simp only [AttemptOutcome.settle, h]

/-- It fails where there is no template, with an error of its own. -/
theorem exists_settle_of_ofText {error : TemplateError} (origin : String)
    (h : Node.ofText text = .error error) :
    ∃ failure, (AttemptOutcome.answered (documentFrom origin text)).settle = .failed failure := by
  rw [documentFrom]
  rw [Node.ofText] at h
  cases hjson : Json.ofText? text with
  | none => exact ⟨_, rfl⟩
  | some json =>
    rw [hjson] at h
    simp only [AttemptOutcome.settle, h]
    exact ⟨_, rfl⟩

def BuiltIn (node : Node) : Prop :=
  ∀ path target, node.at? path = some target → Html.primitives.contains target.type = true

/-- A template of built-in types is one that the standard interpreter finds nothing unknown
in. -/
theorem builtIn_iff : BuiltIn node ↔ (standard context).firstUnknown? node = none := by
  rw [Interpreter.firstUnknown?_eq_none_iff]
  rfl

instance : Decidable (BuiltIn node) :=
  decidable_of_iff ((standard .empty).firstUnknown? node = none) builtIn_iff.symm

/-- A template of built-in types is printed as its markup. -/
theorem printed_of_builtIn (context : Context) (h : BuiltIn node) :
    ∃ element, ((standard context).build node).result = .ok element ∧
      printed context node = .print element.render := by
  obtain ⟨element, hbuild⟩ :=
    Interpreter.exists_ok_of_firstUnknown?_eq_none (builtIn_iff.1 h)
  exact ⟨element, hbuild, by rw [printed, hbuild]⟩

/-- Any other template comes to an error, and nothing is printed. -/
theorem printed_of_not_builtIn (context : Context) (h : ¬ BuiltIn node) :
    ∃ error, ((standard context).build node).result = .error error ∧
      printed context node = .fail (.build error) := by
  cases hfirst : (standard context).firstUnknown? node with
  | none => exact absurd (builtIn_iff.2 hfirst) h
  | some visit =>
    have hbuild := Interpreter.result_eq_error_iff.2 ⟨visit.1, visit.2, hfirst, rfl⟩
    exact ⟨_, hbuild, by rw [printed, hbuild]⟩

/-- Whether a text is a template that passes a test. -/
def reads (text : String) (test : Node → Bool) : Bool :=
  match Node.ofText text with
  | .ok node => test node
  | .error _ => false

theorem exists_ofText_of_reads {test : Node → Bool} (h : reads text test = true) :
    ∃ node, Node.ofText text = .ok node ∧ test node = true := by
  rw [reads] at h
  cases hread : Node.ofText text with
  | error error =>
    rw [hread] at h
    cases h
  | ok node =>
    rw [hread] at h
    exact ⟨node, rfl, h⟩

theorem exists_error_of_reads (h : reads text (fun _ => true) = false) :
    ∃ error, Node.ofText text = .error error := by
  rw [reads] at h
  cases hread : Node.ofText text with
  | error error => exact ⟨error, rfl⟩
  | ok node =>
    rw [hread] at h
    cases h

/-- The text of a context. -/
def ada : String := "\x7b\"name\":\"Ada\"\x7d"

/-- The text of settings with a base. -/
def nearby : String := "\x7b\"baseUrl\":\"http://localhost\"\x7d"

/-- A template in a file and at every address, with a context and settings in files
beside it. The program works somewhere else. -/
def mirrored (text : String) : World where
  files.tree := .directory
    [("home", .directory []),
      ("srv", .directory [("page.json", .file text.toUTF8), ("me.json", .file ada.toUTF8),
        ("sdr.json", .file nearby.toUTF8)])]
  files.workingDirectory := ["home"]
  network := fun _ => .ok ⟨200, .ok text.toUTF8.data.toList⟩
  listen := fun _ => .ok ()
  mint := NodePath.key

theorem exists_members_ada : ∃ members, Json.ofText? ada = some (.object members) := by
  have hstrings : (Json.ofText? ada).any (fun json => (Json.Record.strings? json).isSome) =
      true := by decide +kernel
  obtain ⟨json, hjson, hobject⟩ := (Option.any_eq_true _ _).1 hstrings
  cases json with
  | object members => exact ⟨members, hjson⟩
  | _ => cases hobject

theorem exists_givesSettings_mirrored (text : String) :
    ∃ settings, GivesSettings (mirrored text) (some "../srv/sdr.json") settings ∧
      (none : Option String).getD settings.baseUrl ≠ "" := by
  have hreads : (FetchSettings.ofText? nearby).any (fun settings => settings.baseUrl != "") =
      true := by decide +kernel
  obtain ⟨settings, htext, hbase⟩ := (Option.any_eq_true _ _).1 hreads
  exact ⟨settings, .inFile rfl htext, by simpa using hbase⟩

/-- A template that shows a name from the context. -/
def greeting : String := "\x7b\"type\":\"Text\",\"children\":\"prop::name\"\x7d"

/-- A template of a type that is not built in. -/
def strange : String := "\x7b\"type\":\"Marquee\"\x7d"

/-- A document that is no template. -/
def vacant : String := "\x7b\x7d"

end Command

end UiTemplate
