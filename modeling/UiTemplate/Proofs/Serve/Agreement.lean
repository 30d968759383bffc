import UiTemplate.Serve
import UiTemplate.Proofs.Acquisition.Schedule
import UiTemplate.Proofs.Fetch.Confinement

/-!
The server and an acquisition that reads the same directory agree about what is a
template. Both get the document in the same way and read it in the same way, but
each has its own words for what goes wrong: a response has a status for a path that
goes up, one for a missing file and one for everything else, and an acquisition has
failures. What both come down to is whether the directory offers a template for the
path.
-/

namespace UiTemplate

namespace AttemptOutcome

variable {answer : Except FetchError Json} {document : Node}

theorem settle_eq_ready_iff : (answered answer).settle = .ready document ↔
    ∃ json, answer = .ok json ∧ Node.ofJson json = .ok document := by
  cases answer with
  | error error => simp [settle]
  | ok json =>
    rw [settle]
    cases hread : Node.ofJson json with
    | error error => simp [hread]
    | ok node => simp [hread]

theorem exists_failed_of_not_ready (h : ∀ document, (answered answer).settle ≠ .ready document) :
    ∃ error, (answered answer).settle = .failed error := by
  cases hsettle : (answered answer).settle with
  | pending =>
    have hpending := isPending_settle (answered answer)
    rw [hsettle] at hpending
    cases hpending
  | ready document => exact absurd hsettle (h document)
  | failed error => exact ⟨error, rfl⟩

end AttemptOutcome

namespace Acquisition

/-- An acquisition can come to show a settled state, however it is reloaded, if
every attempt asks the same source. -/
def SettlesIn (fetcher : Fetcher) (path : String) (state : AcquisitionState) : Prop :=
  ∃ history acquisition, Run path history acquisition ∧
    (∀ attempt outcome, .published attempt outcome ∈ history →
      outcome = .answered (fetcher path)) ∧
    acquisition.state = state ∧ state.isPending = false

/-- An acquisition settles in what its one answer comes to. -/
theorem settlesIn_iff {fetcher : Fetcher} {path : String} {state : AcquisitionState} :
    SettlesIn fetcher path state ↔
      state = (AttemptOutcome.answered (fetcher path)).settle := by
  constructor
  · rintro ⟨history, acquisition, hrun, hsource, rfl, hsettled⟩
    obtain ⟨_, outcome, _, hlast, hstate⟩ := hrun.phase.settled_by_last hsettled
    rw [hstate, hsource _ _ hlast]
  · rintro rfl
    have hstart : Run path [] (start path) := .start
    have hrun := hstart.step (.publish (List.mem_singleton.2 rfl) (.answered (fetcher path)))
    refine ⟨_, _, hrun, ?_, ?_, AttemptOutcome.isPending_settle _⟩
    · intro attempt outcome hmem
      obtain ⟨_, rfl⟩ := Event.published.inj (List.mem_singleton.1 hmem)
      rfl
    · rfl

end Acquisition

namespace Directory

variable {files : FileSystem} {root path : String} {document : Json} {node : Node}

/-- For a path, the directory has a file with the text of a document that is a
template. -/
def Offers (files : FileSystem) (root path : String) (document : Json) (node : Node) : Prop :=
  ∃ found content text, locate files root path = some found ∧
    files.find found = .ok (.file content) ∧ Text.Utf8.decode? content = some text ∧
    Json.ofText? text = some document ∧ Node.ofJson document = .ok node

theorem readText_eq_ok_iff {text : String} : files.readText path = .ok text ↔
    ∃ content, files.find path = .ok (.file content) ∧ Text.Utf8.decode? content = some text := by
  rw [FileSystem.readText]
  cases files.find path with
  | error error => simp
  | ok target =>
    cases target with
    | directory entries => simp
    | file content =>
      simp only [Except.ok.injEq, FileTree.file.injEq, exists_eq_left']
      cases Text.Utf8.decode? content with
      | none => simp
      | some decoded => simp

theorem fetch_of_locate_eq_none (h : locate files root path = none) :
    fetch files root path = .error (.notFound path) := by
  rw [fetch, h]

/-- A file that is there gives its document, or its content is what is wrong. -/
theorem fetch_of_locate {found : String} (h : locate files root path = some found) :
    (∃ text document, files.readText found = .ok text ∧ Json.ofText? text = some document ∧
      fetch files root path = .ok document) ∨
    ((∀ text, files.readText found = .ok text → Json.ofText? text = none) ∧
      ∃ reason, fetch files root path = .error (.malformed found reason)) := by
  rw [fetch, h]
  cases hread : files.readText found with
  | error error =>
    refine .inr ⟨?_, error.message, by simp only [hread]⟩
    intro text htext
    cases htext
  | ok text =>
    simp only [hread, documentFrom]
    cases hjson : Json.ofText? text with
    | none =>
      refine .inr ⟨?_, notJsonReason, rfl⟩
      intro other hother
      rwa [← Except.ok.inj hother]
    | some document => exact .inl ⟨text, document, rfl, hjson, rfl⟩

/-- A template is on offer if it can be fetched and read. -/
theorem offers_iff : Offers files root path document node ↔
    fetch files root path = .ok document ∧ Node.ofJson document = .ok node := by
  constructor
  · rintro ⟨found, content, text, hlocate, hfind, hdecode, hjson, hnode⟩
    have hread := readText_eq_ok_iff.2 ⟨content, hfind, hdecode⟩
    rcases fetch_of_locate hlocate with ⟨other, _, hother, hdocument, hfetch⟩ | ⟨hwrong, _⟩
    · rw [hread] at hother
      cases hother
      rw [hjson] at hdocument
      cases hdocument
      exact ⟨hfetch, hnode⟩
    · rw [hwrong text hread] at hjson
      cases hjson
  · rintro ⟨hfetch, hnode⟩
    cases hlocate : locate files root path with
    | none =>
      rw [fetch_of_locate_eq_none hlocate] at hfetch
      cases hfetch
    | some found =>
      rcases fetch_of_locate hlocate with ⟨text, other, hread, hjson, hother⟩ | ⟨_, reason, herror⟩
      · rw [hother] at hfetch
        cases hfetch
        obtain ⟨content, hfind, hdecode⟩ := readText_eq_ok_iff.1 hread
        exact ⟨found, content, text, hlocate, hfind, hdecode, hjson, hnode⟩
      · rw [herror] at hfetch
        cases hfetch

end Directory

namespace Serve

open Directory (Offers locate)
open FileTree (components)

variable {files : FileSystem} {root path : String} {document : Json} {node : Node}

theorem isNone_relative?_iff :
    (Directory.relative? path).isNone = true ↔ ".." ∈ components path := by
  rw [Option.isNone_iff_eq_none, Directory.relative?_eq_none_iff]

theorem respond_of_up (h : ".." ∈ components path) : (respond files root path).status = 400 := by
  rw [respond, if_pos (isNone_relative?_iff.2 h)]
  rfl

theorem respond_of_missing (hup : ".." ∉ components path) (h : locate files root path = none) :
    (respond files root path).status = 404 := by
  rw [respond, if_neg (mt isNone_relative?_iff.1 hup), Directory.fetch_of_locate_eq_none h]
  rfl

theorem not_up_of_locate {found : String} (h : locate files root path = some found) :
    ".." ∉ components path := by
  intro hup
  rw [Directory.locate_eq, if_pos hup] at h
  cases h

/-- A template on offer is answered with its document. -/
theorem respond_of_offers (h : Offers files root path document node) :
    respond files root path = ⟨200, some "application/json", document.text⟩ := by
  obtain ⟨hfetch, hnode⟩ := Directory.offers_iff.1 h
  obtain ⟨found, _, _, hlocate, _⟩ := h
  rw [respond, if_neg (mt isNone_relative?_iff.1 (not_up_of_locate hlocate))]
  simp only [hfetch, hnode]

/-- A file that is there but is no template is a fault of the server. -/
theorem respond_of_not_offers {found : String} (hlocate : locate files root path = some found)
    (h : ¬ ∃ document node, Offers files root path document node) :
    (respond files root path).status = 500 := by
  rw [respond, if_neg (mt isNone_relative?_iff.1 (not_up_of_locate hlocate))]
  rcases Directory.fetch_of_locate hlocate with ⟨_, document, _, _, hfetch⟩ | ⟨_, reason, hfetch⟩
  · cases hnode : Node.ofJson document with
    | ok node => exact absurd ⟨document, node, Directory.offers_iff.2 ⟨hfetch, hnode⟩⟩ h
    | error error =>
      simp only [hfetch, hnode]
      rfl
  · simp only [hfetch]
    rfl

theorem settlesIn_ready_iff :
    Acquisition.SettlesIn (Directory.fetch files root) path (.ready node) ↔
      ∃ document, Offers files root path document node := by
  rw [Acquisition.settlesIn_iff, eq_comm, AttemptOutcome.settle_eq_ready_iff]
  simp only [Directory.offers_iff]

/-- The status tells apart a way upwards, a missing file, a file that is no template and a
template. -/
theorem status_cases (files : FileSystem) (root path : String) :
    (".." ∈ components path ∧ (¬ ∃ document node, Offers files root path document node) ∧
      (respond files root path).status = 400) ∨
    (".." ∉ components path ∧ locate files root path = none ∧
      (¬ ∃ document node, Offers files root path document node) ∧
      (respond files root path).status = 404) ∨
    (".." ∉ components path ∧ locate files root path ≠ none ∧
      (¬ ∃ document node, Offers files root path document node) ∧
      (respond files root path).status = 500) ∨
    (".." ∉ components path ∧ locate files root path ≠ none ∧
      (∃ document node, Offers files root path document node) ∧
      (respond files root path).status = 200) := by
  cases hlocate : locate files root path with
  | none =>
    have hoffers : ¬ ∃ document node, Offers files root path document node := by
      rintro ⟨document, node, found, content, text, hfound, _⟩
      rw [hlocate] at hfound
      cases hfound
    by_cases hup : ".." ∈ components path
    · exact .inl ⟨hup, hoffers, respond_of_up hup⟩
    · exact .inr (.inl ⟨hup, rfl, hoffers, respond_of_missing hup hlocate⟩)
  | some found =>
    have hup := not_up_of_locate hlocate
    have hfound : some found ≠ none := Option.some_ne_none found
    by_cases hoffers : ∃ document node, Offers files root path document node
    · obtain ⟨document, node, hoffer⟩ := hoffers
      have hstatus : (respond files root path).status = 200 := by rw [respond_of_offers hoffer]
      exact .inr (.inr (.inr ⟨hup, hfound, ⟨document, node, hoffer⟩, hstatus⟩))
    · exact .inr (.inr (.inl ⟨hup, hfound, hoffers, respond_of_not_offers hlocate hoffers⟩))

/-- The text of a template that is a file of the directory after it. -/
def homeText : String := "\x7b\"type\":\"Text\",\"children\":\"hi\"\x7d"

def pages : FileSystem where
  tree := .directory [("srv", .directory [("home.json", .file homeText.toUTF8)])]
  workingDirectory := ["srv"]

end Serve

end UiTemplate
