import UiTemplate.Json.Raw
import UiTemplate.Proofs.Json.Scanning

/-!
Reading what was printed. The printer goes through a document in the order of its
constructors, and for each of them the tokens of the parts are known to be read as the
parts wherever these may stand. Documents with floating-point numbers are left out:
the shortest text of such a number may be read as a neighbour of it.
-/

namespace UiTemplate.Json

/-- Documents whose numbers are all whole. -/
inductive IsExact : Json → Prop where
  | null : IsExact .null
  | bool (b : Bool) : IsExact (.bool b)
  | whole (n : Whole) : IsExact (.number (.whole n))
  | string (s : String) : IsExact (.string s)
  | array {items : List Json} (h : ∀ item ∈ items, IsExact item) : IsExact (.array items)
  | object {members : List (String × Json)} (h : ∀ member ∈ members, IsExact member.2) :
      IsExact (.object members)

namespace Raw.Reader

variable {tokens rest : List Token} {token : Token} {raw : Raw} {raws : List Raw}
  {pieces : List Piece} {members : List (List Piece × Raw)} {r : Reader}

/-- Where a value may stand, the tokens are read as this one. -/
def ReadsValue (tokens : List Token) (raw : Raw) : Prop :=
  ∀ r : Reader, r.expect = .value ∨ r.expect = .valueOrClose →
    tokens.foldlM step r = r.put? raw

/-- Where an item may stand, the tokens are read as these items. -/
def ReadsItems (tokens : List Token) (raws : List Raw) : Prop :=
  ∀ before outer expect, expect = .value ∨ expect = .valueOrClose →
    tokens.foldlM step ⟨.array before :: outer, expect, none⟩ =
      some ⟨.array (raws.reverse ++ before) :: outer, .commaOrClose, none⟩

/-- Where a member may stand, the tokens are read as these members. -/
def ReadsMembers (tokens : List Token) (members : List (List Piece × Raw)) : Prop :=
  ∀ before outer expect, expect = .name ∨ expect = .nameOrClose →
    tokens.foldlM step ⟨.object before :: outer, expect, none⟩ =
      some ⟨.object (members.reverse ++ before) :: outer, .commaOrClose, none⟩

theorem foldlM_step_cons {next : Reader} (h : step r token = some next) :
    (token :: tokens).foldlM step r = tokens.foldlM step next := by
  rw [List.foldlM_cons, h, Option.bind_eq_bind, Option.bind_some]

theorem foldlM_step_append {next : Reader} (h : tokens.foldlM step r = some next) :
    (tokens ++ rest).foldlM step r = rest.foldlM step next := by
  rw [List.foldlM_append, h, Option.bind_eq_bind, Option.bind_some]

theorem foldlM_step_singleton (r : Reader) (token : Token) :
    [token].foldlM step r = step r token := by
  rw [List.foldlM_cons]
  exact bind_pure (step r token)

/-- A token that is a value by itself. -/
theorem readsValue_singleton
    (h : ∀ r : Reader, r.expect = .value ∨ r.expect = .valueOrClose → step r token = r.put? raw) :
    ReadsValue [token] raw := by
  intro r hr
  rw [foldlM_step_singleton]
  exact h r hr

theorem readsValue_string (pieces : List Piece) :
    ReadsValue [.string pieces] (.string pieces) := by
  apply readsValue_singleton
  rintro ⟨frames, expect, done⟩ (rfl | rfl) <;> rfl

theorem step_openArray (hr : r.expect = .value ∨ r.expect = .valueOrClose) :
    step r .openArray = some ⟨.array [] :: r.frames, .valueOrClose, none⟩ :=
  if_pos hr

theorem step_openObject (hr : r.expect = .value ∨ r.expect = .valueOrClose) :
    step r .openObject = some ⟨.object [] :: r.frames, .nameOrClose, none⟩ :=
  if_pos hr

/-- A container that is closed stands where it was opened. -/
theorem closeWith?_eq_put? (hr : r.expect = .value ∨ r.expect = .valueOrClose) :
    closeWith? r.frames raw = r.put? raw := by
  obtain ⟨frames, expect, done⟩ := r
  rcases hr with rfl | rfl <;> rfl

theorem ReadsValue.item (h : ReadsValue tokens raw) : ReadsItems tokens [raw] := by
  intro before outer expect hexpect
  rw [h _ hexpect]
  rcases hexpect with rfl | rfl <;> rfl

theorem ReadsItems.cons (hrest : ReadsItems rest raws) (h : ReadsValue tokens raw) :
    ReadsItems (tokens ++ .comma :: rest) (raw :: raws) := by
  intro before outer expect hexpect
  have hcomma : step ⟨.array ([raw].reverse ++ before) :: outer, .commaOrClose, none⟩ .comma =
      some ⟨.array (raw :: before) :: outer, .value, none⟩ := rfl
  rw [foldlM_step_append (h.item before outer expect hexpect), foldlM_step_cons hcomma,
    hrest _ outer .value (.inl rfl), List.reverse_cons, List.append_assoc]
  rfl

theorem readsValue_emptyArray : ReadsValue [.openArray, .closeArray] (.array []) := by
  intro r hr
  rw [foldlM_step_cons (step_openArray hr), foldlM_step_singleton,
    ← closeWith?_eq_put? hr]
  rfl

/-- Items between brackets are an array. -/
theorem ReadsItems.array (h : ReadsItems tokens raws) :
    ReadsValue (.openArray :: (tokens ++ [.closeArray])) (.array raws) := by
  intro r hr
  rw [foldlM_step_cons (step_openArray hr),
    foldlM_step_append (h [] r.frames .valueOrClose (.inr rfl)), foldlM_step_singleton,
    ← closeWith?_eq_put? hr]
  simp [step]

theorem ReadsValue.member (h : ReadsValue tokens raw) (pieces : List Piece) :
    ReadsMembers (.string pieces :: .colon :: tokens) [(pieces, raw)] := by
  intro before outer expect hexpect
  have hname : step ⟨.object before :: outer, expect, none⟩ (.string pieces) =
      some ⟨.member before pieces :: outer, .colon, none⟩ := by
    rcases hexpect with rfl | rfl <;> rfl
  have hcolon : step ⟨.member before pieces :: outer, .colon, none⟩ .colon =
      some ⟨.member before pieces :: outer, .value, none⟩ := rfl
  rw [foldlM_step_cons hname, foldlM_step_cons hcolon, h _ (.inl rfl)]
  rfl

theorem ReadsMembers.cons (hrest : ReadsMembers rest members) (h : ReadsValue tokens raw)
    (pieces : List Piece) :
    ReadsMembers (.string pieces :: .colon :: (tokens ++ .comma :: rest))
      ((pieces, raw) :: members) := by
  intro before outer expect hexpect
  have hcomma :
      step ⟨.object ([(pieces, raw)].reverse ++ before) :: outer, .commaOrClose, none⟩ .comma =
        some ⟨.object ((pieces, raw) :: before) :: outer, .name, none⟩ := rfl
  have hfirst := h.member pieces before outer expect hexpect
  rw [← List.cons_append, ← List.cons_append, foldlM_step_append hfirst,
    foldlM_step_cons hcomma, hrest _ outer .name (.inl rfl), List.reverse_cons,
    List.append_assoc]
  rfl

theorem readsValue_emptyObject : ReadsValue [.openObject, .closeObject] (.object []) := by
  intro r hr
  rw [foldlM_step_cons (step_openObject hr), foldlM_step_singleton,
    ← closeWith?_eq_put? hr]
  rfl

/-- Members between braces are an object. -/
theorem ReadsMembers.object (h : ReadsMembers tokens members) :
    ReadsValue (.openObject :: (tokens ++ [.closeObject])) (.object members) := by
  intro r hr
  rw [foldlM_step_cons (step_openObject hr),
    foldlM_step_append (h [] r.frames .nameOrClose (.inr rfl)), foldlM_step_singleton,
    ← closeWith?_eq_put? hr]
  simp [step]

end Raw.Reader

open Scanner Raw.Reader

variable {text other : List Char} {json : Json} {items : List Json} {name : String}
  {members : List (String × Json)}

/-- The text is scanned and read as the document. -/
def Writes (text : List Char) (json : Json) : Prop :=
  ∃ tokens raw, Scans text tokens ∧ ReadsValue tokens raw ∧ raw.asWritten? = some json

/-- The text is scanned and read as the items of an array. -/
def WritesItems (text : List Char) (items : List Json) : Prop :=
  ∃ tokens raws, Scans text tokens ∧ ReadsItems tokens raws ∧
    Raw.itemsAsWritten? raws = some items

/-- The text is scanned and read as the members of an object. -/
def WritesMembers (text : List Char) (members : List (String × Json)) : Prop :=
  ∃ tokens raws, Scans text tokens ∧ ReadsMembers tokens raws ∧
    Raw.membersAsWritten? raws = some members

theorem writes_null : Writes Json.null.chars .null :=
  ⟨[.null], .null, fun _ => ⟨_, rfl, rfl⟩, readsValue_singleton fun _ _ => rfl, rfl⟩

theorem writes_bool (b : Bool) : Writes (Json.bool b).chars (.bool b) := by
  cases b with
  | false =>
    exact ⟨[.bool false], .bool false, fun _ => ⟨_, rfl, rfl⟩,
      readsValue_singleton fun _ _ => rfl, rfl⟩
  | true =>
    exact ⟨[.bool true], .bool true, fun _ => ⟨_, rfl, rfl⟩,
      readsValue_singleton fun _ _ => rfl, rfl⟩

theorem writes_whole (n : Whole) :
    Writes (Json.number (.whole n)).chars (.number (.whole n)) := by
  refine ⟨_, .number (Literal.ofInt n.value), scans_integerText n.value,
    readsValue_singleton fun _ _ => rfl, ?_⟩
  rw [Raw.asWritten?, Number.ofLiteral?_ofInt, Option.map_some]

theorem writes_string (s : String) : Writes (Json.string s).chars (.string s) := by
  obtain ⟨pieces, hscan, hdecode⟩ := exists_completes_quote s.toList
  refine ⟨_, .string pieces, hscan.scans, readsValue_string pieces, ?_⟩
  rw [Raw.asWritten?, hdecode, Option.map_some, String.ofList_toList]

theorem Writes.item (h : Writes text json) : WritesItems text [json] := by
  obtain ⟨tokens, raw, hscan, hread, hwritten⟩ := h
  refine ⟨tokens, [raw], hscan, hread.item, ?_⟩
  simp [Raw.itemsAsWritten?, hwritten]

theorem WritesItems.cons (hrest : WritesItems other items) (h : Writes text json) :
    WritesItems (text ++ ',' :: other) (json :: items) := by
  obtain ⟨tokens, raw, hscan, hread, hwritten⟩ := h
  obtain ⟨rest, raws, hscanRest, hreadRest, hwrittenRest⟩ := hrest
  refine ⟨tokens ++ .comma :: rest, raw :: raws, ?_, hreadRest.cons hread, ?_⟩
  · simpa using (hscan.mark isMark_comma).append hscanRest
  · simp [Raw.itemsAsWritten?, hwritten, hwrittenRest]

theorem writes_emptyArray : Writes (Json.array []).chars (.array []) :=
  ⟨_, _, isMark_openArray.completes.append isMark_closeArray.completes.scans,
    readsValue_emptyArray, rfl⟩

theorem WritesItems.array (h : WritesItems text items) :
    Writes ('[' :: (text ++ [']'])) (.array items) := by
  obtain ⟨tokens, raws, hscan, hread, hwritten⟩ := h
  refine ⟨_, .array raws, ?_, hread.array, ?_⟩
  · exact isMark_openArray.completes.append (hscan.mark isMark_closeArray).scans
  · rw [Raw.asWritten?, hwritten, Option.map_some]

theorem Writes.member (h : Writes text json) (name : String) :
    WritesMembers (quote name.toList ++ ':' :: text) [(name, json)] := by
  obtain ⟨tokens, raw, hscan, hread, hwritten⟩ := h
  obtain ⟨pieces, hscanName, hdecode⟩ := exists_completes_quote name.toList
  refine ⟨_, [(pieces, raw)], ?_, hread.member pieces, ?_⟩
  · exact hscanName.append (isMark_colon.completes.append hscan)
  · simp [Raw.membersAsWritten?, hdecode, hwritten]

theorem WritesMembers.cons (hrest : WritesMembers other members) (h : Writes text json)
    (name : String) :
    WritesMembers (quote name.toList ++ ':' :: (text ++ ',' :: other))
      ((name, json) :: members) := by
  obtain ⟨tokens, raw, hscan, hread, hwritten⟩ := h
  obtain ⟨rest, raws, hscanRest, hreadRest, hwrittenRest⟩ := hrest
  obtain ⟨pieces, hscanName, hdecode⟩ := exists_completes_quote name.toList
  refine ⟨_, (pieces, raw) :: raws, ?_, hreadRest.cons hread pieces, ?_⟩
  · have hvalue := (hscan.mark isMark_comma).append hscanRest
    simpa using hscanName.append (isMark_colon.completes.append hvalue)
  · simp [Raw.membersAsWritten?, hdecode, hwritten, hwrittenRest]

theorem writes_emptyObject : Writes (Json.object []).chars (.object []) :=
  ⟨_, _, isMark_openObject.completes.append isMark_closeObject.completes.scans,
    readsValue_emptyObject, rfl⟩

theorem WritesMembers.object (h : WritesMembers text members) :
    Writes ('\x7b' :: (text ++ ['\x7d'])) (.object members) := by
  obtain ⟨tokens, raws, hscan, hread, hwritten⟩ := h
  refine ⟨_, .object raws, ?_, hread.object, ?_⟩
  · exact isMark_openObject.completes.append (hscan.mark isMark_closeObject).scans
  · rw [Raw.asWritten?, hwritten, Option.map_some]

theorem writesItems_charsItems (item : Json) (items : List Json)
    (h : ∀ x ∈ item :: items, Writes x.chars x) :
    WritesItems (charsItems (item :: items)) (item :: items) := by
  induction items generalizing item with
  | nil => exact (h item List.mem_cons_self).item
  | cons next items ih =>
    obtain ⟨hitem, hrest⟩ := List.forall_mem_cons.1 h
    exact (ih next hrest).cons hitem

theorem writesMembers_charsMembers (member : String × Json) (members : List (String × Json))
    (h : ∀ x ∈ member :: members, Writes x.2.chars x.2) :
    WritesMembers (charsMembers (member :: members)) (member :: members) := by
  induction members generalizing member with
  | nil => exact (h member List.mem_cons_self).member member.1
  | cons next members ih =>
    obtain ⟨hmember, hrest⟩ := List.forall_mem_cons.1 h
    exact (ih next hrest).cons hmember member.1

/-- By induction on the document: what is printed of it is scanned and read as the same
document. -/
theorem IsExact.writes (h : json.IsExact) : Writes json.chars json := by
  induction h with
  | null => exact writes_null
  | bool b => exact writes_bool b
  | whole n => exact writes_whole n
  | string s => exact writes_string s
  | @array items _ ih =>
    cases items with
    | nil => exact writes_emptyArray
    | cons item items => exact (writesItems_charsItems item items ih).array
  | @object members _ ih =>
    cases members with
    | nil => exact writes_emptyObject
    | cons member members => exact (writesMembers_charsMembers member members ih).object

/-- The text of a document without floating-point numbers is read as that document. -/
theorem IsExact.exists_raw (h : json.IsExact) :
    ∃ raw, Raw.ofChars? json.chars = some raw ∧ raw.asWritten? = some json := by
  obtain ⟨tokens, raw, hscan, hread, hwritten⟩ := h.writes
  refine ⟨raw, ?_, hwritten⟩
  obtain ⟨last, hlast, hclose⟩ := hscan []
  have htokens : Token.scan? json.chars = some tokens := by
    rw [Token.scan?, Scanner.start, hlast, Option.bind_eq_bind, Option.bind_some, hclose]
    simp
  rw [Raw.ofChars?, htokens, Option.bind_eq_bind, Option.bind_some, hread _ (.inl rfl)]
  rfl

end UiTemplate.Json
