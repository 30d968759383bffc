/-!
Cutting and searching texts. A text is worked on as its list of characters, so
that every operation here is a structural recursion and keeps track of which
characters go where. Nothing in this module depends on how a text is stored.
-/

namespace UiTemplate.Text

/-- The pieces between the separators. There is always one piece more than
there are separators, so an empty text has one empty piece. -/
def splitOn (separator : Char) : List Char → List (List Char)
  | [] => [[]]
  | c :: text =>
    if c = separator then
      [] :: splitOn separator text
    else
      match splitOn separator text with
      | [] => [[c]]
      | piece :: pieces => (c :: piece) :: pieces

def after? : (marker text : List Char) → Option (List Char)
  | [], text => some text
  | _ :: _, [] => none
  | m :: marker, c :: text => if m = c then after? marker text else none

/-- The text before and after the first occurrence of `marker`. -/
def cut? (marker : List Char) : List Char → Option (List Char × List Char)
  | [] => (after? marker []).map fun rest => ([], rest)
  | c :: text =>
    match after? marker (c :: text) with
    | some rest => some ([], rest)
    | none => (cut? marker text).map fun (before, rest) => (c :: before, rest)

def contains (marker text : List Char) : Bool :=
  (cut? marker text).isSome

def eraseFirst (marker text : List Char) : List Char :=
  match cut? marker text with
  | some (before, rest) => before ++ rest
  | none => text

def replace (c : Char) (replacement : List Char) (text : List Char) : List Char :=
  text.flatMap fun d => if d = c then replacement else [d]

def join (separator : List Char) : List (List Char) → List Char
  | [] => []
  | [piece] => piece
  | piece :: next :: pieces => piece ++ separator ++ join separator (next :: pieces)

/-- The characters with the Unicode property White_Space. -/
def isBlank (c : Char) : Bool :=
  (9 ≤ c.val && c.val ≤ 13) || c.val == 32 || c.val == 0x85 || c.val == 0xA0 ||
    c.val == 0x1680 || (0x2000 ≤ c.val && c.val ≤ 0x200A) || c.val == 0x2028 ||
    c.val == 0x2029 || c.val == 0x202F || c.val == 0x205F || c.val == 0x3000

def trimStart (text : List Char) : List Char :=
  text.dropWhile isBlank

/-- The number written by a list of ASCII digits, most significant first.
Other characters are not expected. -/
def digitsValue (digits : List Char) : Nat :=
  digits.foldl (fun n c => n * 10 + (c.toNat - '0'.toNat)) 0

def hexValue? (c : Char) : Option Nat :=
  if '0' ≤ c ∧ c ≤ '9' then some (c.toNat - '0'.toNat)
  else if 'a' ≤ c ∧ c ≤ 'f' then some (c.toNat - 'a'.toNat + 10)
  else if 'A' ≤ c ∧ c ≤ 'F' then some (c.toNat - 'A'.toNat + 10)
  else none

/-- The hexadecimal digit of a value below sixteen, in lower case. -/
def hexDigit (n : Nat) : Char :=
  Nat.digitChar n

@[simp] theorem after?_append (marker text : List Char) :
    after? marker (marker ++ text) = some text := by
  induction marker with
  | nil => rfl
  | cons m marker ih => simp [after?, ih]

theorem after?_eq_some_iff {marker text rest : List Char} :
    after? marker text = some rest ↔ text = marker ++ rest := by
  induction marker generalizing text with
  | nil => simp [after?]
  | cons m marker ih =>
    cases text with
    | nil => simp [after?]
    | cons c text =>
      by_cases h : m = c
      · simp [after?, h, ih]
      · simp [after?, h, Ne.symm h]

/-- A cut loses nothing but the marker. -/
theorem eq_of_cut? {marker text before rest : List Char}
    (h : cut? marker text = some (before, rest)) : text = before ++ marker ++ rest := by
  induction text generalizing before with
  | nil =>
    obtain ⟨r, hr, heq⟩ := Option.map_eq_some_iff.1 h
    rw [after?_eq_some_iff] at hr
    cases heq
    simpa using hr
  | cons c text ih =>
    rw [cut?] at h
    split at h
    · next r hr =>
      cases h
      simpa using after?_eq_some_iff.1 hr
    · obtain ⟨⟨b, r⟩, hr, heq⟩ := Option.map_eq_some_iff.1 h
      cases heq
      simp [ih hr]

theorem length_lt_of_cut? {marker text before rest : List Char} (hm : marker ≠ [])
    (h : cut? marker text = some (before, rest)) : rest.length < text.length := by
  have := List.length_pos_iff.2 hm
  rw [eq_of_cut? h]
  simp
  omega

/-- A cut at a single character is at its first occurrence. -/
theorem cut?_append_cons {c : Char} {before : List Char} (h : c ∉ before) (rest : List Char) :
    cut? [c] (before ++ c :: rest) = some (before, rest) := by
  induction before with
  | nil => simp [cut?, after?]
  | cons d before ih =>
    obtain ⟨hd, hbefore⟩ : c ≠ d ∧ c ∉ before := by simpa using h
    simp [cut?, after?, hd, ih hbefore]

theorem splitOn_ne_nil (separator : Char) (text : List Char) : splitOn separator text ≠ [] := by
  cases text with
  | nil => simp [splitOn]
  | cons c text =>
    rw [splitOn]
    split
    · simp
    · split <;> simp

/-- Splitting a text at a separator in its middle splits the two sides. -/
theorem splitOn_append (separator : Char) (left right : List Char) :
    splitOn separator (left ++ separator :: right) =
      splitOn separator left ++ splitOn separator right := by
  induction left with
  | nil => simp [splitOn]
  | cons c left ih =>
    by_cases h : c = separator
    · simp [splitOn, h, ih]
    · simp only [List.cons_append, splitOn, if_neg h, ih]
      cases hs : splitOn separator left with
      | nil => exact absurd hs (splitOn_ne_nil separator left)
      | cons piece pieces => rfl

end UiTemplate.Text
