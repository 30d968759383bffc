import UiTemplate.Path

/-!
Which item of an array a segment leads to. A segment counts items if it is a numeral:
decimal digits, after a plus sign if wanted, with as many zeros in front as one likes.
Numbers are read a digit at a time into a 64-bit word, and the reading is given up as
soon as they no longer fit one. More digits never make a number smaller, so that is no
loss: a numeral is either read as the number that it stands for, or it stands for one
that is behind the end of every array.
-/

namespace UiTemplate

namespace Path

/-- One decimal digit or more. -/
structure IsDigits (digits : List Char) : Prop where
  ne_nil : digits ≠ []
  isDigit : ∀ c ∈ digits, c.isDigit = true

theorem isDigits_iff {digits : List Char} :
    IsDigits digits ↔ digits ≠ [] ∧ digits.all Char.isDigit = true := by
  rw [List.all_eq_true]
  exact ⟨fun h => ⟨h.ne_nil, h.isDigit⟩, fun h => ⟨h.1, h.2⟩⟩

instance (digits : List Char) : Decidable (IsDigits digits) :=
  decidable_of_iff _ isDigits_iff.symm

/-- A segment that counts, and the number that it stands for, however large. -/
inductive IsNumeral (segment : String) : Nat → Prop where
  | plain {digits : List Char} (hdigits : IsDigits digits) (hsegment : segment.toList = digits) :
    IsNumeral segment (Text.digitsValue digits)
  | signed {digits : List Char} (hdigits : IsDigits digits)
    (hsegment : segment.toList = '+' :: digits) : IsNumeral segment (Text.digitsValue digits)

def unsigned : List Char → List Char
  | '+' :: rest => rest
  | text => text

/-- The number that digits stand for behind those of `start`. -/
def numberFrom (start : Nat) (digits : List Char) : Nat :=
  digits.foldl (fun n c => n * 10 + (c.toNat - '0'.toNat)) start

variable {digits : List Char} {segment : String} {start n next : Nat} {c : Char}

theorem digitsValue_eq_numberFrom (digits : List Char) :
    Text.digitsValue digits = numberFrom 0 digits := rfl

theorem le_numberFrom (start : Nat) (digits : List Char) : start ≤ numberFrom start digits := by
  induction digits generalizing start with
  | nil => exact Nat.le_refl start
  | cons c rest ih =>
    calc
      start ≤ start * 10 + (c.toNat - '0'.toNat) := by omega
      _ ≤ numberFrom (start * 10 + (c.toNat - '0'.toNat)) rest := ih _

theorem indexDigit?_eq_some_iff : indexDigit? n c = some next ↔
    c.isDigit = true ∧ n * 10 + (c.toNat - '0'.toNat) = next ∧ next < UInt64.size := by
  by_cases hdigit : c.isDigit = true
  · simp only [indexDigit?, if_pos hdigit]
    constructor
    · intro h
      split at h
      · next hfits =>
        cases h
        exact ⟨hdigit, rfl, hfits⟩
      · cases h
    · rintro ⟨-, rfl, hfits⟩
      exact if_pos hfits
  · rw [indexDigit?, if_neg hdigit]
    exact ⟨nofun, fun h => absurd h.1 hdigit⟩

/-- Digits are read as the number that they stand for, if it fits a word. What has been
read at any time is no larger, so nothing is given up that would have fitted. -/
theorem foldlM_indexDigit?_eq_some_iff (hstart : start < UInt64.size) :
    digits.foldlM indexDigit? start = some n ↔
      (∀ c ∈ digits, c.isDigit = true) ∧ numberFrom start digits = n ∧ n < UInt64.size := by
  induction digits generalizing start with
  | nil =>
    constructor
    · rintro ⟨⟩
      exact ⟨List.forall_mem_nil _, rfl, hstart⟩
    · rintro ⟨-, rfl, -⟩
      rfl
  | cons c rest ih =>
    rw [List.foldlM_cons, Option.bind_eq_bind, Option.bind_eq_some_iff]
    constructor
    · rintro ⟨next, hnext, hrest⟩
      obtain ⟨hdigit, rfl, hfits⟩ := indexDigit?_eq_some_iff.1 hnext
      obtain ⟨hdigits, hvalue, hn⟩ := (ih hfits).1 hrest
      exact ⟨List.forall_mem_cons.2 ⟨hdigit, hdigits⟩, hvalue, hn⟩
    · rintro ⟨hall, hvalue, hn⟩
      obtain ⟨hdigit, hdigits⟩ := List.forall_mem_cons.1 hall
      -- The digits behind `c` only make the number larger, so it has fitted up to here.
      have hfits : start * 10 + (c.toNat - '0'.toNat) < UInt64.size := by
        refine Nat.lt_of_le_of_lt (le_numberFrom _ rest) ?_
        rw [← hvalue] at hn
        exact hn
      exact ⟨_, indexDigit?_eq_some_iff.2 ⟨hdigit, rfl, hfits⟩, (ih hfits).2 ⟨hdigits, hvalue, hn⟩⟩

theorem unsigned_of_isDigits (h : IsDigits digits) : unsigned digits = digits := by
  rw [unsigned.eq_def]
  split
  · next rest =>
    have hsign : '+'.isDigit = true := h.isDigit '+' List.mem_cons_self
    exact absurd hsign (by decide)
  · rfl

/-- A plus sign is no digit, so the digits of a numeral are all that follows a sign. -/
theorem isNumeral_iff : IsNumeral segment n ↔
    IsDigits (unsigned segment.toList) ∧ Text.digitsValue (unsigned segment.toList) = n := by
  constructor
  · intro h
    cases h with
    | plain hdigits hsegment =>
      rw [hsegment, unsigned_of_isDigits hdigits]
      exact ⟨hdigits, rfl⟩
    | signed hdigits hsegment =>
      rw [hsegment]
      exact ⟨hdigits, rfl⟩
  · rintro ⟨hdigits, rfl⟩
    cases hsegment : segment.toList with
    | nil =>
      rw [hsegment] at hdigits
      exact absurd rfl hdigits.ne_nil
    | cons c rest =>
      rw [hsegment] at hdigits
      by_cases hsign : c = '+'
      · subst hsign
        exact .signed hdigits hsegment
      · have hplain : unsigned (c :: rest) = c :: rest := by simp [unsigned, hsign]
        rw [hplain] at hdigits ⊢
        exact .plain hdigits hsegment

instance (segment : String) (n : Nat) : Decidable (IsNumeral segment n) :=
  decidable_of_iff _ isNumeral_iff.symm

/-- A numeral has one number. -/
theorem IsNumeral.unique {other : Nat} (h : IsNumeral segment n) (hother : IsNumeral segment other) :
    n = other :=
  (isNumeral_iff.1 h).2.symm.trans (isNumeral_iff.1 hother).2

/-- An index is a numeral whose number fits into 64 bits. -/
theorem index?_eq_some_iff :
    index? segment = some n ↔ IsNumeral segment n ∧ n < UInt64.size := by
  have hindex : index? segment =
      if (unsigned segment.toList).isEmpty then none
      else (unsigned segment.toList).foldlM indexDigit? 0 := rfl
  rw [hindex, isNumeral_iff, digitsValue_eq_numberFrom]
  by_cases hempty : unsigned segment.toList = []
  · rw [if_pos (by simpa using hempty)]
    exact ⟨nofun, fun h => absurd hempty h.1.1.ne_nil⟩
  · rw [if_neg (by simpa using hempty), foldlM_indexDigit?_eq_some_iff (by decide)]
    constructor
    · rintro ⟨hdigits, hvalue, hn⟩
      exact ⟨⟨⟨hempty, hdigits⟩, hvalue⟩, hn⟩
    · rintro ⟨⟨hdigits, hvalue⟩, hn⟩
      exact ⟨hdigits.isDigit, hvalue, hn⟩

end Path

namespace Value

/-- An item is found by any numeral of its place, leading zeros and a plus sign allowed. -/
theorem child?_array_eq_some_iff {items : List Value} {segment : String} {part : Value} :
    (Value.array items).child? segment = some part ↔
      ∃ n, Path.IsNumeral segment n ∧ n < UInt64.size ∧ items[n]? = some part := by
  simp only [child?, Option.bind_eq_some_iff, Path.index?_eq_some_iff, and_assoc]

/-- A segment leads to an item of an array if it is the numeral of its position and to
nothing otherwise. That is so for every array whose length fits a 64-bit word; only in a
longer one there would be items that no numeral leads to. -/
theorem item_by_numeral (items : List Value) (segment : String) :
    (∀ part, (Value.array items).child? segment = some part ↔
      ∃ n, Path.IsNumeral segment n ∧ n < UInt64.size ∧ items[n]? = some part) ∧
    (items.length ≤ UInt64.size →
      (∀ n, n < items.length → (Path.index? segment = some n ↔ Path.IsNumeral segment n)) ∧
      (∀ n, Path.IsNumeral segment n → (Value.array items).child? segment = items[n]?) ∧
      ((∀ n, n < items.length → ¬ Path.IsNumeral segment n) →
        (Value.array items).child? segment = none)) := by
  refine ⟨fun part => child?_array_eq_some_iff, fun hlength => ⟨?_, ?_, ?_⟩⟩
  · intro n hn
    exact Path.index?_eq_some_iff.trans (and_iff_left (Nat.lt_of_lt_of_le hn hlength))
  · intro n hnumeral
    apply Option.ext
    intro part
    rw [child?_array_eq_some_iff]
    constructor
    · rintro ⟨other, hother, -, hitem⟩
      rwa [hnumeral.unique hother]
    · intro hitem
      obtain ⟨hn, -⟩ := List.getElem?_eq_some_iff.1 hitem
      exact ⟨n, hnumeral, Nat.lt_of_lt_of_le hn hlength, hitem⟩
  · intro hnone
    rw [Option.eq_none_iff_forall_ne_some]
    intro part hpart
    obtain ⟨n, hnumeral, -, hitem⟩ := child?_array_eq_some_iff.1 hpart
    obtain ⟨hn, -⟩ := List.getElem?_eq_some_iff.1 hitem
    exact hnone n hn hnumeral

/-- Three items of different kinds. -/
def mixedItems : List Value :=
  [.bool true, .null, .string "last"]

/-- A numeral with a sign and zeros in front, one that would be the same number in a
64-bit word, and two that are none. -/
theorem item_by_numeral_mixed :
    mixedItems.length ≤ UInt64.size ∧ Path.IsNumeral "+002" 2 ∧
      (Value.array mixedItems).child? "+002" = some (.string "last") ∧
      Path.IsNumeral "18446744073709551618" 18446744073709551618 ∧
      (Value.array mixedItems).child? "18446744073709551618" = none ∧
      (Value.array mixedItems).child? "-2" = none ∧ (Value.array mixedItems).child? "" = none := by
  have hlength : mixedItems.length ≤ UInt64.size := by simp [mixedItems, UInt64.size]
  have hlast : Path.IsNumeral "+002" 2 := by decide
  have hwide : Path.IsNumeral "18446744073709551618" 18446744073709551618 := by decide
  have hminus : ∀ n, n < mixedItems.length → ¬ Path.IsNumeral "-2" n := by
    have hdigits : ¬ Path.IsDigits (Path.unsigned "-2".toList) := by decide
    exact fun n _ h => hdigits (Path.isNumeral_iff.1 h).1
  have hempty : ∀ n, n < mixedItems.length → ¬ Path.IsNumeral "" n := by
    have hdigits : ¬ Path.IsDigits (Path.unsigned "".toList) := by decide
    exact fun n _ h => hdigits (Path.isNumeral_iff.1 h).1
  refine ⟨hlength, hlast, ?_, hwide, ?_, ?_, ?_⟩
  · exact ((item_by_numeral mixedItems "+002").2 hlength).2.1 2 hlast
  · exact ((item_by_numeral mixedItems "18446744073709551618").2 hlength).2.1 _ hwide
  · exact ((item_by_numeral mixedItems "-2").2 hlength).2.2 hminus
  · exact ((item_by_numeral mixedItems "").2 hlength).2.2 hempty

end Value

end UiTemplate
