import UiTemplate.Json.Record
import UiTemplate.Proofs.Fields.Order

/-!
The fields of a record among the members of a document. A document is either at hand or
still a text; in both cases a member has a name and a part that may turn out to be a
value, and which fields the members give is one relation. It shows what does not matter
for a record: the order of the members, and members with other names.
-/

namespace UiTemplate.Json.Record

variable {π : Type} {known names : List String} {read : π → Option Json} {name : String}
  {part : π} {members others unknown : List (Option String × π)} {fields : Fields Json}
  {items : List π} {present : String → Bool}

/-- The members give a record with these known names its fields. A member whose name is
no text gives nothing, and neither does one that repeats a known name. -/
inductive Gathers (known : List String) (read : π → Option Json) :
    List (Option String × π) → Fields Json → Prop where
  | nil : Gathers known read [] []
  | field {name : String} {part : π} {value : Json} {members : List (Option String × π)}
      {fields : Fields Json} (hname : name ∈ known) (hread : read part = some value)
      (hfresh : name ∉ Fields.names fields) (h : Gathers known read members fields) :
      Gathers known read ((some name, part) :: members) ((name, value) :: fields)
  | skip {name : String} {part : π} {members : List (Option String × π)}
      {fields : Fields Json} (hname : name ∉ known) (h : Gathers known read members fields) :
      Gathers known read ((some name, part) :: members) fields

/-- No field is gathered twice. -/
theorem Gathers.nodup_names (h : Gathers known read members fields) :
    (Fields.names fields).Nodup := by
  induction h with
  | nil => exact List.nodup_nil
  | field _ _ hfresh _ ih => exact List.nodup_cons.2 ⟨hfresh, ih⟩
  | skip _ _ ih => exact ih

theorem gathers_nil_iff : Gathers known read [] fields ↔ fields = [] := by
  constructor
  · rintro ⟨⟩
    rfl
  · rintro rfl
    exact .nil

theorem gathers_cons_iff_of_mem (hname : name ∈ known) :
    Gathers known read ((some name, part) :: members) fields ↔
      ∃ value rest, read part = some value ∧ name ∉ Fields.names rest ∧
        Gathers known read members rest ∧ fields = (name, value) :: rest := by
  constructor
  · intro h
    cases h with
    | field _ hread hfresh h => exact ⟨_, _, hread, hfresh, h, rfl⟩
    | skip hunknown => exact absurd hname hunknown
  · rintro ⟨value, rest, hread, hfresh, h, rfl⟩
    exact .field hname hread hfresh h

theorem gathers_cons_iff_of_not_mem (hname : name ∉ known) :
    Gathers known read ((some name, part) :: members) fields ↔
      Gathers known read members fields := by
  constructor
  · intro h
    cases h with
    | field hknown => exact absurd hknown hname
    | skip _ h => exact h
  · exact .skip hname

/-- Two members that change places give the same fields in another order. -/
theorem Gathers.swap {first second : Option String × π}
    (h : Gathers known read (first :: second :: members) fields) :
    ∃ moved, Gathers known read (second :: first :: members) moved ∧ fields.Perm moved := by
  cases h with
  | field hname hread hfresh h =>
    cases h with
    | field hname' hread' hfresh' h =>
      obtain ⟨hne, hfresh⟩ := not_or.1 (mt List.mem_cons.2 hfresh)
      refine ⟨_, .field hname' hread' ?_ (.field hname hread hfresh h), .swap _ _ _⟩
      exact mt List.mem_cons.1 (not_or.2 ⟨Ne.symm hne, hfresh'⟩)
    | skip hname' h => exact ⟨_, .skip hname' (.field hname hread hfresh h), .refl _⟩
  | skip hname h =>
    cases h with
    | field hname' hread' hfresh' h =>
      exact ⟨_, .field hname' hread' hfresh' (.skip hname h), .refl _⟩
    | skip hname' h => exact ⟨_, .skip hname' (.skip hname h), .refl _⟩

/-- In another order the members give the same fields in another order. -/
theorem Gathers.perm (h : Gathers known read members fields) (hperm : members.Perm others) :
    ∃ moved, Gathers known read others moved ∧ fields.Perm moved := by
  induction hperm generalizing fields with
  | nil => exact ⟨fields, h, .refl _⟩
  | cons member _ ih =>
    cases h with
    | field hname hread hfresh h =>
      obtain ⟨moved, hmoved, hfields⟩ := ih h
      refine ⟨_, .field hname hread ?_ hmoved, hfields.cons _⟩
      exact mt (hfields.map Prod.fst).mem_iff.2 hfresh
    | skip hname h =>
      obtain ⟨moved, hmoved, hfields⟩ := ih h
      exact ⟨moved, .skip hname hmoved, hfields⟩
  | swap => exact h.swap
  | trans _ _ ihFirst ihSecond =>
    obtain ⟨middle, hmiddle, hfirst⟩ := ihFirst h
    obtain ⟨moved, hmoved, hsecond⟩ := ihSecond hmiddle
    exact ⟨moved, hmoved, hfirst.trans hsecond⟩

/-- Members whose names are texts, but not known ones. -/
def AreUnknown (known : List String) (members : List (Option String × π)) : Prop :=
  ∀ member ∈ members, ∃ name, member.1 = some name ∧ name ∉ known

/-- Unknown members in front give nothing and do no harm. -/
theorem gathers_append_iff (h : AreUnknown known unknown) :
    Gathers known read (unknown ++ members) fields ↔ Gathers known read members fields := by
  induction unknown with
  | nil => rfl
  | cons member unknown ih =>
    obtain ⟨⟨name, hname, hunknown⟩, hrest⟩ := List.forall_mem_cons.1 h
    obtain ⟨_, part⟩ := member
    subst hname
    rw [List.cons_append, gathers_cons_iff_of_not_mem hunknown, ih hrest]

/-- The members that are left when those with other names are missing. -/
def only (present : String → Bool) (members : List (Option String × π)) :
    List (Option String × π) :=
  members.filter fun member => member.1.all present

theorem only_cons_of_pos (h : present name = true) (part : π)
    (members : List (Option String × π)) :
    only present ((some name, part) :: members) = (some name, part) :: only present members :=
  List.filter_cons_of_pos h

theorem only_cons_of_neg (h : ¬ present name = true) (part : π)
    (members : List (Option String × π)) :
    only present ((some name, part) :: members) = only present members :=
  List.filter_cons_of_neg h

theorem not_mem_names_filter {p : String × Json → Bool} (h : name ∉ Fields.names fields) :
    name ∉ Fields.names (fields.filter p) :=
  fun hmem => h ((List.filter_sublist.map Prod.fst).subset hmem)

/-- Leaving members out leaves out their fields and nothing else. -/
theorem Gathers.only (h : Gathers known read members fields) (present : String → Bool) :
    Gathers known read (only present members)
      (fields.filter fun field => present field.1) := by
  induction h with
  | nil => exact .nil
  | @field name part value members fields hname hread hfresh _ ih =>
    by_cases hpresent : present name = true
    · rw [only_cons_of_pos hpresent, List.filter_cons_of_pos (by exact hpresent)]
      exact .field hname hread (not_mem_names_filter hfresh) ih
    · rw [only_cons_of_neg hpresent, List.filter_cons_of_neg (by exact hpresent)]
      exact ih
  | @skip name part members fields hname _ ih =>
    by_cases hpresent : present name = true
    · rw [only_cons_of_pos hpresent]
      exact .skip hname ih
    · rw [only_cons_of_neg hpresent]
      exact ih

/-- Parts that are given the names in turn are the fields of these names. -/
theorem gathers_zip_iff (hlength : items.length ≤ names.length)
    (hknown : ∀ name ∈ names, name ∈ known) (hnodup : names.Nodup) :
    Gathers known read ((names.map some).zip items) fields ↔
      ∃ values, items.mapM read = some values ∧ fields = names.zip values := by
  induction items generalizing names fields with
  | nil => simp [gathers_nil_iff]
  | cons item items ih =>
    cases names with
    | nil => cases hlength
    | cons name names =>
      obtain ⟨hname, hrest⟩ := List.forall_mem_cons.1 hknown
      obtain ⟨hfresh, hnames⟩ := List.nodup_cons.1 hnodup
      have hzip : ∀ values : List Json, name ∉ Fields.names (names.zip values) := by
        intro values hmem
        obtain ⟨field, hfield, rfl⟩ := List.mem_map.1 hmem
        exact hfresh (List.of_mem_zip hfield).1
      rw [List.map_cons, List.zip_cons_cons, gathers_cons_iff_of_mem hname]
      simp only [ih (Nat.le_of_succ_le_succ hlength) hrest hnames, List.mapM_cons,
        Option.bind_eq_bind, Option.bind_eq_some_iff]
      constructor
      · rintro ⟨value, _, hread, -, ⟨values, hvalues, rfl⟩, rfl⟩
        exact ⟨value :: values, ⟨value, hread, values, hvalues, rfl⟩, rfl⟩
      · rintro ⟨_, ⟨value, hread, values, hvalues, ⟨⟩⟩, rfl⟩
        exact ⟨value, _, hread, hzip values, ⟨values, hvalues, rfl⟩, rfl⟩

theorem contains_eq_true_iff :
    Fields.contains name fields = true ↔ name ∈ Fields.names fields := by
  rw [Fields.contains, Option.isSome_iff_exists, Fields.mem_names_iff]

/-- The members of a text, each with its name if that is a text. -/
def entries (members : List (List Piece × Raw)) : List (Option String × Raw) :=
  members.map fun member => ((Piece.decode? member.1).map String.ofList, member.2)

/-- The loop over the members gathers their fields. -/
theorem ofMembers?_eq_some_iff {members : List (List Piece × Raw)} :
    ofMembers? known members = some fields ↔
      Gathers known Raw.asWritten? (entries members) fields := by
  induction members generalizing fields with
  | nil =>
    rw [entries, List.map_nil, gathers_nil_iff, ofMembers?, Option.some_inj]
    exact eq_comm
  | cons member members ih =>
    obtain ⟨pieces, raw⟩ := member
    rw [entries, List.map_cons, ← entries, ofMembers?]
    cases Piece.decode? pieces with
    | none => exact iff_of_false nofun nofun
    | some text =>
      simp only [Option.bind_eq_bind, Option.bind_some, List.contains_iff_mem, Option.map_some]
      split
      · next hname =>
        simp only [gathers_cons_iff_of_mem hname, ← ih, Option.bind_eq_some_iff]
        constructor
        · rintro ⟨value, hread, rest, hrest, h⟩
          split at h
          · cases h
          · next hfresh =>
            cases h
            exact ⟨value, rest, hread, mt contains_eq_true_iff.2 hfresh, hrest, rfl⟩
        · rintro ⟨value, rest, hread, hfresh, hrest, rfl⟩
          exact ⟨value, hread, rest, hrest, if_neg (mt contains_eq_true_iff.1 hfresh)⟩
      · next hname => rw [ih, gathers_cons_iff_of_not_mem hname]

/-- The members of an object at hand, where every name is a text. -/
def named (members : List (String × Json)) : List (Option String × Json) :=
  members.map fun member => (some member.1, member.2)

/-- In a document no name is repeated, so its known members are the fields. -/
theorem gathers_named_iff {members : List (String × Json)}
    (h : (Fields.names members).Nodup) :
    Gathers known some (named members) fields ↔
      fields = members.filter fun member => known.contains member.1 := by
  induction members generalizing fields with
  | nil => exact gathers_nil_iff
  | cons member members ih =>
    obtain ⟨name, value⟩ := member
    obtain ⟨hfresh, hrest⟩ := List.nodup_cons.1 h
    rw [named, List.map_cons, ← named, List.filter_cons]
    by_cases hname : name ∈ known
    · rw [if_pos (List.contains_iff_mem.2 hname), gathers_cons_iff_of_mem hname]
      simp only [ih hrest]
      constructor
      · rintro ⟨_, _, ⟨⟩, -, rfl, rfl⟩
        rfl
      · rintro rfl
        exact ⟨value, _, rfl, not_mem_names_filter hfresh, rfl, rfl⟩
    · rw [if_neg (mt List.contains_iff_mem.1 hname), gathers_cons_iff_of_not_mem hname,
        ih hrest]

end UiTemplate.Json.Record
