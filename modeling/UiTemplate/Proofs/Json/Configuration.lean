import UiTemplate.Build.Options
import UiTemplate.Fetch.Settings
import UiTemplate.Proofs.Fields.Last
import UiTemplate.Proofs.Json.Codec

/-!
The two records that are configuration: the settings of fetching and the options of a
build. Both are read by their fields' names, from an object or from an array, and what
was written is read as it was. In a text the fields may be written in any order, and so
may the headers, which have none of their own.
-/

namespace UiTemplate

open Json.Record

variable {fields first second : Fields Json}

namespace Json.Record

theorem field?_congr {α : Type} {decode : Json → Option α} {default : α}
    (h : ∀ name, first.get? name = second.get? name) (name : String) :
    field? name decode default first = field? name decode default second := by
  rw [field?, field?, h]

/-- A field that is not present has its default. -/
theorem field?_of_missing {α : Type} {decode : Json → Option α} {default value : α}
    {present : String → Bool} {name : String}
    (h : ∀ name, second.get? name = if present name then first.get? name else none)
    (hfirst : field? name decode default first = some value) :
    field? name decode default second = some (if present name then value else default) := by
  rw [field?, h]
  by_cases hpresent : present name = true
  · rw [if_pos hpresent, if_pos hpresent]
    exact hfirst
  · rw [if_neg hpresent, if_neg hpresent]

/-- A number that fits a 64-bit word is a whole number of a document. -/
theorem exists_whole {n : Nat} (h : n < UInt64.size) :
    ∃ whole : Whole, whole.value = n ∧ Json.ofNat n = .number (.whole whole) := by
  rw [UInt64.size] at h
  obtain ⟨whole, hvalue⟩ : ∃ whole : Whole, whole.value = n := ⟨⟨n, by omega, by omega⟩, rfl⟩
  refine ⟨whole, hvalue, ?_⟩
  rw [Json.ofNat, ← hvalue, Whole.ofInt?_value, Option.elim_some]

theorem nat?_ofNat {n : Nat} (h : n < UInt64.size) : nat? (Json.ofNat n) = some n := by
  obtain ⟨whole, hvalue, hjson⟩ := exists_whole h
  rw [hjson, nat?, hvalue, if_pos (Int.natCast_nonneg n), Int.toNat_natCast]

theorem strings?_object (headers : List (String × String)) :
    strings? (.object (headers.map fun (name, value) => (name, .string value))) =
      some (Fields.ofList headers) := by
  have hnamed : (headers.map fun (name, value) => (name, Json.string value)).mapM
      (fun member => (string? member.2).map fun s => (member.1, s)) = some headers := by
    rw [List.mapM_map]
    exact List.mapM_pure.trans (congrArg some headers.map_id)
  rw [strings?, hnamed, Option.map_some]

end Json.Record

namespace FetchSettings

theorem timeout?_ofNat (timeout : UInt64) : timeout? (Json.ofNat timeout.toNat) = some timeout := by
  rw [timeout?, nat?_ofNat timeout.toNat_lt, Option.bind_some, if_pos timeout.toNat_lt,
    UInt64.ofNat_toNat]

/-- The settings with those fields only that are present. -/
def restrict (present : String → Bool) (settings : FetchSettings) : FetchSettings :=
  let defaults : FetchSettings := {}
  { method := if present "method" then settings.method else defaults.method
    baseUrl := if present "baseUrl" then settings.baseUrl else defaults.baseUrl
    headers := if present "headers" then settings.headers else defaults.headers
    timeoutMs := if present "timeoutMs" then settings.timeoutMs else defaults.timeoutMs }

/-- Settings are decoded if each of their fields is. -/
theorem ofFields?_eq_some_iff {settings : FetchSettings} :
    ofFields? fields = some settings ↔
      field? "method" (fun value => (choice? value).bind HttpMethod.ofName?) .get fields =
          some settings.method ∧
        field? "baseUrl" string? "" fields = some settings.baseUrl ∧
        field? "headers" strings? [] fields = some settings.headers ∧
        field? "timeoutMs" timeout? 5000 fields = some settings.timeoutMs := by
  simp only [ofFields?, Option.bind_eq_bind, Option.bind_eq_some_iff]
  constructor
  · rintro ⟨method, hmethod, baseUrl, hbase, headers, hheaders, timeout, htimeout, ⟨⟩⟩
    exact ⟨hmethod, hbase, hheaders, htimeout⟩
  · rintro ⟨hmethod, hbase, hheaders, htimeout⟩
    exact ⟨_, hmethod, _, hbase, _, hheaders, _, htimeout, rfl⟩

theorem looksUp : LooksUp restrict ofFields? where
  congr h := by simp only [ofFields?, field?_congr h]
  missing h hrecord := by
    obtain ⟨hmethod, hbase, hheaders, htimeout⟩ := ofFields?_eq_some_iff.1 hrecord
    exact ofFields?_eq_some_iff.2 ⟨field?_of_missing h hmethod, field?_of_missing h hbase,
      field?_of_missing h hheaders, field?_of_missing h htimeout⟩

theorem ofName?_name (method : HttpMethod) : HttpMethod.ofName? method.name = some method := by
  cases method <;> rfl

/-- The settings are read back, with the headers that come of putting them together. -/
theorem ofJson?_toJson (settings : FetchSettings) :
    ofJson? settings.toJson =
      some { settings with headers := Fields.ofList settings.headers } := by
  have hfields : Json.Record.ofJson? fieldNames settings.toJson =
      some [("baseUrl", .string settings.baseUrl),
        ("headers", .object (settings.headers.map fun (name, value) => (name, .string value))),
        ("method", .string settings.method.name),
        ("timeoutMs", Json.ofNat settings.timeoutMs.toNat)] := rfl
  rw [ofJson?, hfields, Option.bind_some, ofFields?_eq_some_iff]
  refine ⟨?_, rfl, strings?_object settings.headers, timeout?_ofNat settings.timeoutMs⟩
  exact ofName?_name settings.method

theorem isExact_toJson (settings : FetchSettings) : settings.toJson.IsExact := by
  obtain ⟨timeout, -, htimeout⟩ := exists_whole settings.timeoutMs.toNat_lt
  have hheaders : ∀ member ∈ settings.headers.map fun (name, value) => (name, Json.string value),
      member.2.IsExact := by
    intro member hmember
    obtain ⟨header, -, rfl⟩ := List.mem_map.1 hmember
    exact .string header.2
  rw [toJson, htimeout]
  apply Json.IsExact.object
  simp only [List.forall_mem_cons]
  exact ⟨.string _, .object hheaders, .string _, .whole timeout, List.forall_mem_nil _⟩

/-- A document that the settings may be written as. The headers have no order of their
own, and neither do the members. -/
def IsWritten (settings : FetchSettings) (json : Json) : Prop :=
  Fields.Sorted settings.headers ∧ ∃ headers, headers.Perm settings.headers ∧
    (toJson { settings with headers }).Reordered json

theorem isWritten_toJson {settings : FetchSettings} (h : Fields.Sorted settings.headers) :
    IsWritten settings settings.toJson :=
  ⟨h, settings.headers, .refl _, _, _, rfl, rfl, .refl _⟩

theorem codec : Codec IsWritten fieldNames restrict ofJson? ofText? := by
  apply looksUp.codec (by decide)
  rintro settings json ⟨hsorted, headers, hheaders, hjson⟩
  refine ⟨_, hjson, isExact_toJson { settings with headers }, by simp [Fields.names], ?_⟩
  have hread := ofJson?_toJson { settings with headers }
  rw [hsorted.ofList_eq_of_perm hheaders] at hread
  exact hread

end FetchSettings

namespace BuildOptions

def restrict (present : String → Bool) (options : BuildOptions) : BuildOptions :=
  let defaults : BuildOptions := {}
  { keyProp := if present "keyProp" then options.keyProp else defaults.keyProp
    keys := if present "keys" then options.keys else defaults.keys
    placeholderType :=
      if present "placeholderType" then options.placeholderType else defaults.placeholderType }

/-- Options are decoded if each of their fields is. -/
theorem ofFields?_eq_some_iff {options : BuildOptions} :
    ofFields? fields = some options ↔
      field? "keyProp" string? "key" fields = some options.keyProp ∧
        field? "keys" (fun value => (choice? value).bind KeyStrategy.ofName?) .treePath fields =
          some options.keys ∧
        field? "placeholderType" string? "View" fields = some options.placeholderType := by
  simp only [ofFields?, Option.bind_eq_bind, Option.bind_eq_some_iff]
  constructor
  · rintro ⟨keyProp, hkeyProp, keys, hkeys, placeholder, hplaceholder, ⟨⟩⟩
    exact ⟨hkeyProp, hkeys, hplaceholder⟩
  · rintro ⟨hkeyProp, hkeys, hplaceholder⟩
    exact ⟨_, hkeyProp, _, hkeys, _, hplaceholder, rfl⟩

theorem looksUp : LooksUp restrict ofFields? where
  congr h := by simp only [ofFields?, field?_congr h]
  missing h hrecord := by
    obtain ⟨hkeyProp, hkeys, hplaceholder⟩ := ofFields?_eq_some_iff.1 hrecord
    exact ofFields?_eq_some_iff.2 ⟨field?_of_missing h hkeyProp, field?_of_missing h hkeys,
      field?_of_missing h hplaceholder⟩

theorem ofName?_name (keys : KeyStrategy) : KeyStrategy.ofName? keys.name = some keys := by
  cases keys <;> rfl

theorem ofJson?_toJson (options : BuildOptions) : ofJson? options.toJson = some options := by
  have hfields : Json.Record.ofJson? fieldNames options.toJson =
      some [("keyProp", .string options.keyProp), ("keys", .string options.keys.name),
        ("placeholderType", .string options.placeholderType)] := rfl
  rw [ofJson?, hfields, Option.bind_some, ofFields?_eq_some_iff]
  exact ⟨rfl, ofName?_name options.keys, rfl⟩

/-- A document that the options may be written as, with the members in any order. -/
def IsWritten (options : BuildOptions) (json : Json) : Prop :=
  options.toJson.Reordered json

theorem codec : Codec IsWritten fieldNames restrict ofJson? ofText? := by
  apply looksUp.codec (by decide)
  intro options json hjson
  refine ⟨_, hjson, ?_, by simp [Fields.names], ofJson?_toJson options⟩
  apply Json.IsExact.object
  simp only [List.forall_mem_cons]
  exact ⟨.string _, .string _, .string _, List.forall_mem_nil _⟩

theorem isWritten_toJson (options : BuildOptions) : IsWritten options options.toJson :=
  ⟨_, _, rfl, rfl, .refl _⟩

end BuildOptions

/-- Configuration is read by its fields' names, as it was written. The headers are a map,
so their names are in order; nothing else is asked of settings or options to be written. -/
theorem configuration_codecs :
    (∀ settings : FetchSettings, Fields.Sorted settings.headers →
        FetchSettings.IsWritten settings settings.toJson) ∧
      Codec FetchSettings.IsWritten FetchSettings.fieldNames FetchSettings.restrict
        FetchSettings.ofJson? FetchSettings.ofText? ∧
      (∀ options : BuildOptions, BuildOptions.IsWritten options options.toJson) ∧
      Codec BuildOptions.IsWritten BuildOptions.fieldNames BuildOptions.restrict
        BuildOptions.ofJson? BuildOptions.ofText? :=
  ⟨fun _ => FetchSettings.isWritten_toJson, FetchSettings.codec, BuildOptions.isWritten_toJson,
    BuildOptions.codec⟩

/-- Settings that differ from the defaults in every field. -/
def relay : FetchSettings where
  method := .put
  baseUrl := "/a"
  headers := [("accept", "*/*")]
  timeoutMs := 7

/-- Settings and options are read back. A member that is not known and the order of
the others do not matter, members that are left out leave defaults, and two fields by
position are the same two by name. -/
theorem configuration_codecs_relay :
    (FetchSettings.ofJson? relay.toJson = some relay ∧
      FetchSettings.ofText? relay.toJson.text = some relay ∧
      BuildOptions.ofText? (BuildOptions.toJson { keys := .random }).text =
        some { keys := .random }) ∧
    FetchSettings.ofText? "\x7b\"x\":true,\"method\":\"PUT\",\"baseUrl\":\"/a\"\x7d" =
      FetchSettings.ofText? "\x7b\"baseUrl\":\"/a\",\"method\":\"PUT\"\x7d" ∧
    FetchSettings.ofJson? (.object [("baseUrl", .string "/a")]) = some { baseUrl := "/a" } ∧
    FetchSettings.ofText? "[\"PUT\",\"/a\"]" =
      FetchSettings.ofText? "\x7b\"baseUrl\":\"/a\",\"method\":\"PUT\"\x7d" := by
  obtain ⟨hwritten, hsettings, hoption, hoptions⟩ := configuration_codecs
  have hrelay := hwritten relay (List.pairwise_singleton _ _)
  let method : Json.Raw := .string [.char 'P', .char 'U', .char 'T']
  let base : Json.Raw := .string [.char '/', .char 'a']
  have hplain : texts.IsObject "\x7b\"baseUrl\":\"/a\",\"method\":\"PUT\"\x7d"
      [(some "baseUrl", base), (some "method", method)] := ⟨_, rfl, rfl⟩
  refine ⟨⟨hsettings.reads hrelay, hsettings.readsText hrelay, hoptions.readsText (hoption _)⟩,
    ?_, ?_, ?_⟩
  · have hmixed : texts.IsObject
        "\x7b\"x\":true,\"method\":\"PUT\",\"baseUrl\":\"/a\"\x7d"
        ([(some "x", .bool true)] ++ [(some "method", method), (some "baseUrl", base)]) :=
      ⟨_, rfl, rfl⟩
    have hunknown : AreUnknown FetchSettings.fieldNames [(some "x", Json.Raw.bool true)] :=
      List.forall_mem_singleton.2 ⟨"x", rfl, by decide⟩
    exact hsettings.ofTexts.mixed hplain hunknown (.append_left _ (.swap _ _ _)) hmixed
  · exact hsettings.ofDocuments.missing (· == "baseUrl") ⟨_, rfl, by decide, rfl⟩
      (hsettings.reads hrelay) ⟨_, rfl, by decide, rfl⟩
  · have harray : texts.IsArray "[\"PUT\",\"/a\"]" [method, base] := rfl
    exact hsettings.ofTexts.positional harray (by decide) hplain (.swap _ _ _)

end UiTemplate
