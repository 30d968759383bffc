import UiTemplate.Json.Printer
import UiTemplate.Proofs.Json.Printed
import UiTemplate.Proofs.Json.Record

/-!
Records that go by their fields' names. What is asked of such a record is asked of
documents at hand and of texts alike, so both are seen as sources of members and items.
A record whose fields are looked up by name then has all that is asked for, and its
decoder only needs to be shown to look them up.
-/

namespace UiTemplate.Json

/-- The same object, with its members in any order. -/
def Reordered (json other : Json) : Prop :=
  ∃ members others, json = .object members ∧ other = .object others ∧ others.Perm members

theorem IsExact.perm {members others : List (String × Json)} (h : IsExact (.object members))
    (hperm : others.Perm members) : IsExact (.object others) := by
  cases h with
  | object h => exact .object fun member hmember => h member (hperm.mem_iff.1 hmember)

namespace Record

variable {α δ π : Type} {known : List String} {read : π → Option Json} {fields : Fields Json}

/-- Documents of one kind, of which some are objects with these members and some are
arrays with these items. -/
structure Source (δ π : Type) where
  IsObject : δ → List (Option String × π) → Prop
  IsArray : δ → List π → Prop

/-- Documents at hand. No name stands twice in an object. -/
def documents : Source Json Json where
  IsObject json members := ∃ list, json = .object list ∧ (Fields.names list).Nodup ∧
    members = named list
  IsArray json items := json = .array items

/-- Documents that are written out, with names that may stand more than once. -/
def texts : Source String Raw where
  IsObject text members := ∃ list, Raw.ofChars? text.toList = some (.object list) ∧
    members = entries list
  IsArray text items := Raw.ofChars? text.toList = some (.array items)

/-- A record is decoded by its fields' names: `known` are the names in the order of the
array form, and `restrict` gives the fields that are not present their defaults. -/
structure ByName (source : Source δ π) (known : List String)
    (restrict : (String → Bool) → α → α) (decode : δ → Option α) : Prop where
  /-- Neither unknown members nor the order of the members matter. -/
  mixed {first second : δ} {members unknown others : List (Option String × π)} :
    source.IsObject first members → AreUnknown known unknown →
      others.Perm (unknown ++ members) → source.IsObject second others →
        decode second = decode first
  /-- A member that is missing leaves its field at the default and no other. -/
  missing {first second : δ} {members : List (Option String × π)} {record : α}
    (present : String → Bool) :
    source.IsObject first members → decode first = some record →
      source.IsObject second (only present members) →
        decode second = some (restrict present record)
  /-- The items of an array are the values of the first fields. -/
  positional {first second : δ} {items : List π} {members : List (Option String × π)} :
    source.IsArray first items → items.length ≤ known.length →
      source.IsObject second members → members.Perm ((known.map some).zip items) →
        decode first = decode second

/-- A record that is written in JSON and read again, from a document and from a text.
What it is written as need not be one document only. -/
structure Codec (IsWritten : α → Json → Prop) (known : List String)
    (restrict : (String → Bool) → α → α) (ofJson? : Json → Option α)
    (ofText? : String → Option α) : Prop where
  reads {record : α} {json : Json} : IsWritten record json → ofJson? json = some record
  readsText {record : α} {json : Json} :
    IsWritten record json → ofText? json.text = some record
  ofDocuments : ByName documents known restrict ofJson?
  ofTexts : ByName texts known restrict ofText?

/-- The decoder looks its fields up, each by its name. -/
structure LooksUp (restrict : (String → Bool) → α → α) (ofFields? : Fields Json → Option α) :
    Prop where
  congr {first second : Fields Json} :
    (∀ name, first.get? name = second.get? name) → ofFields? first = ofFields? second
  missing {first second : Fields Json} {record : α} {present : String → Bool} :
    (∀ name, second.get? name = if present name then first.get? name else none) →
      ofFields? first = some record → ofFields? second = some (restrict present record)

/-- The fields are those that the members or the items give. -/
structure Gives (source : Source δ π) (known : List String) (read : π → Option Json)
    (fields? : δ → Option (Fields Json)) : Prop where
  object {doc : δ} {members : List (Option String × π)} {fields : Fields Json} :
    source.IsObject doc members →
      (fields? doc = some fields ↔ Gathers known read members fields)
  array {doc : δ} {items : List π} {fields : Fields Json} :
    source.IsArray doc items → items.length ≤ known.length →
      (fields? doc = some fields ↔
        ∃ values, items.mapM read = some values ∧ fields = known.zip values)

theorem ofItems?_eq_some_iff {items : List Json} (h : items.length ≤ known.length) :
    ofItems? known items = some fields ↔ fields = known.zip items := by
  rw [ofItems?, if_pos h, Option.some_inj]
  exact eq_comm

/-- The decoder for documents has the fields that the members give. -/
theorem gives_documents (known : List String) : Gives documents known some (ofJson? known) where
  object := by
    rintro _ _ fields ⟨list, rfl, hnodup, rfl⟩
    rw [gathers_named_iff hnodup, ofJson?, Option.some_inj]
    exact eq_comm
  array := by
    rintro _ items fields rfl hlength
    have hitems : items.mapM some = some items :=
      List.mapM_pure.trans (congrArg some items.map_id)
    simp [ofJson?, ofItems?_eq_some_iff hlength, hitems]

theorem itemsAsWritten?_eq_mapM (items : List Raw) :
    Raw.itemsAsWritten? items = items.mapM Raw.asWritten? := by
  induction items with
  | nil => rfl
  | cons item items ih =>
    rw [Raw.itemsAsWritten?, List.mapM_cons, ih]
    rfl

theorem length_of_mapM {items : List π} {values : List Json}
    (h : items.mapM read = some values) : values.length = items.length := by
  induction items generalizing values with
  | nil =>
    cases h
    rfl
  | cons item items ih =>
    simp only [List.mapM_cons, Option.bind_eq_bind, Option.bind_eq_some_iff] at h
    obtain ⟨value, -, rest, hrest, ⟨⟩⟩ := h
    rw [List.length_cons, List.length_cons, ih hrest]

/-- The decoder for texts has the fields that the written members give. -/
theorem gives_texts (known : List String) :
    Gives texts known Raw.asWritten? (ofText? known) where
  object := by
    rintro text _ fields ⟨list, hread, rfl⟩
    rw [← ofMembers?_eq_some_iff, ofText?, hread]
    rfl
  array := by
    intro text items fields hread hlength
    have htext : ofText? known text = (items.mapM Raw.asWritten?).bind (ofItems? known) := by
      rw [ofText?, hread, ← itemsAsWritten?_eq_mapM]
      rfl
    rw [htext, Option.bind_eq_some_iff]
    apply exists_congr
    intro values
    apply and_congr_right
    intro hvalues
    rw [ofItems?_eq_some_iff (length_of_mapM hvalues ▸ hlength)]

theorem gathers_entries_iff {list : List (List Piece × Raw)} {members : List (String × Json)}
    (h : Raw.membersAsWritten? list = some members) :
    Gathers known Raw.asWritten? (entries list) fields ↔
      Gathers known some (named members) fields := by
  induction list generalizing members fields with
  | nil =>
    cases h
    exact gathers_nil_iff.trans gathers_nil_iff.symm
  | cons member list ih =>
    obtain ⟨pieces, raw⟩ := member
    simp only [Raw.membersAsWritten?, Option.bind_eq_bind, Option.bind_eq_some_iff] at h
    obtain ⟨text, htext, value, hvalue, rest, hrest, ⟨⟩⟩ := h
    rw [entries, List.map_cons, ← entries, named, List.map_cons, ← named, htext, Option.map_some]
    by_cases hname : String.ofList text ∈ known
    · simp only [gathers_cons_iff_of_mem hname, ih hrest, hvalue]
    · rw [gathers_cons_iff_of_not_mem hname, gathers_cons_iff_of_not_mem hname, ih hrest]

/-- A record is the same in the text of an object as in the object. -/
theorem ofText?_text {members : List (String × Json)} (hexact : (Json.object members).IsExact)
    (hnodup : (Fields.names members).Nodup) :
    ofText? known (Json.object members).text = ofJson? known (.object members) := by
  obtain ⟨raw, hread, hwritten⟩ := hexact.exists_raw
  cases raw with
  | object list =>
    obtain ⟨_, hlist, ⟨⟩⟩ := Option.map_eq_some_iff.1 hwritten
    have htext : texts.IsObject (Json.object members).text (entries list) :=
      ⟨list, by rwa [Json.text, String.toList_ofList], rfl⟩
    ext fields
    rw [(gives_texts known).object htext, gathers_entries_iff hlist,
      (gives_documents known).object ⟨members, rfl, hnodup, rfl⟩]
  | _ => simp [Raw.asWritten?] at hwritten

variable {restrict : (String → Bool) → α → α} {ofFields? : Fields Json → Option α}

/-- Members in another order give fields that are decoded alike. -/
theorem LooksUp.bind_eq (h : LooksUp restrict ofFields?) {first second : Option (Fields Json)}
    {members others : List (Option String × π)}
    (hfirst : ∀ fields, first = some fields ↔ Gathers known read members fields)
    (hsecond : ∀ fields, second = some fields ↔ Gathers known read others fields)
    (hperm : members.Perm others) : first.bind ofFields? = second.bind ofFields? := by
  cases first with
  | none =>
    cases second with
    | none => rfl
    | some moved =>
      obtain ⟨fields, hfields, -⟩ := ((hsecond moved).1 rfl).perm hperm.symm
      cases (hfirst fields).2 hfields
  | some fields =>
    have hfields := (hfirst fields).1 rfl
    obtain ⟨moved, hmoved, hmovedPerm⟩ := hfields.perm hperm
    rw [(hsecond moved).2 hmoved]
    exact h.congr (Fields.get?_eq_of_perm hfields.nodup_names hmovedPerm)

/-- A decoder that looks its fields up treats a record by its names, from documents and
texts alike. -/
theorem LooksUp.byName (h : LooksUp restrict ofFields?) {source : Source δ π}
    {fields? : δ → Option (Fields Json)} (hgives : Gives source known read fields?)
    (hnodup : known.Nodup) :
    ByName source known restrict fun doc => (fields? doc).bind ofFields? where
  mixed := by
    intro first second members unknown others hfirst hunknown hperm hsecond
    apply h.bind_eq (fun fields => hgives.object hsecond) _ hperm
    intro fields
    rw [hgives.object hfirst, gathers_append_iff hunknown]
  missing := by
    intro first second members record present hfirst hrecord hsecond
    obtain ⟨fields, hfields, hrecord⟩ := Option.bind_eq_some_iff.1 hrecord
    have hpresent := ((hgives.object hfirst).1 hfields).only present
    rw [(hgives.object hsecond).2 hpresent, Option.bind_some]
    exact h.missing (fun name => Fields.get?_filter present name fields) hrecord
  positional := by
    intro first second items members hfirst hlength hsecond hperm
    symm
    apply h.bind_eq (fun fields => hgives.object hsecond) _ hperm
    intro fields
    rw [hgives.array hfirst hlength, gathers_zip_iff hlength (fun _ hname => hname) hnodup]

/-- A record that looks its fields up is read as it was written if that is so for one
order of the members. -/
theorem LooksUp.codec (h : LooksUp restrict ofFields?) (hnodup : known.Nodup)
    {IsWritten : α → Json → Prop}
    (hwritten : ∀ record json, IsWritten record json → ∃ members,
      (object members).Reordered json ∧ (object members).IsExact ∧
        (Fields.names members).Nodup ∧
          (ofJson? known (.object members)).bind ofFields? = some record) :
    Codec IsWritten known restrict (fun json => (ofJson? known json).bind ofFields?)
      fun text => (ofText? known text).bind ofFields? := by
  have hdocuments := h.byName (gives_documents known) hnodup
  have hreads : ∀ {record json}, IsWritten record json →
      ∃ members, json = .object members ∧ (object members).IsExact ∧
        (Fields.names members).Nodup ∧
          (ofJson? known (.object members)).bind ofFields? = some record := by
    intro record json hjson
    obtain ⟨members, ⟨_, others, ⟨⟩, rfl, hperm⟩, hexact, hnames, hrecord⟩ := hwritten _ _ hjson
    have hothers := (hperm.map Prod.fst).nodup_iff.2 hnames
    refine ⟨others, rfl, hexact.perm hperm, hothers, ?_⟩
    rw [← hrecord]
    exact hdocuments.mixed ⟨members, rfl, hnames, rfl⟩ (List.forall_mem_nil _) (hperm.map _)
      ⟨others, rfl, hothers, rfl⟩
  refine ⟨?_, ?_, hdocuments, h.byName (gives_texts known) hnodup⟩
  · intro record json hjson
    obtain ⟨members, rfl, -, -, hrecord⟩ := hreads hjson
    exact hrecord
  · intro record json hjson
    obtain ⟨members, rfl, hexact, hnames, hrecord⟩ := hreads hjson
    rw [ofText?_text hexact hnames]
    exact hrecord

end Record

end UiTemplate.Json
