/-!
Keys that are unique without asking anybody: a time in milliseconds followed by
80 random bits, written with 26 characters. The alphabet has the digits and the
capitals without the four that are easily misread, in the order of their codes,
so keys sort by their times.
-/

namespace UiTemplate.Ulid

def alphabet : List Char :=
  "0123456789ABCDEFGHJKMNPQRSTVWXYZ".toList

/-- The last `width` digits of a number in base 32, most significant first. -/
def digits : (width : Nat) → Nat → List Char
  | 0, _ => []
  | width + 1, n => digits width (n / 32) ++ [(alphabet[n % 32]?).getD '0']

/-- The key for a time and random bits; of both only as many bits count as
there is room for. -/
def text (milliseconds random : Nat) : String :=
  String.ofList (digits 10 milliseconds ++ digits 16 random)

theorem length_digits (width n : Nat) : (digits width n).length = width := by
  induction width generalizing n with
  | zero => rfl
  | succ width ih => simp [digits, ih]

/-- Whatever the time and the bits are, a key has 26 characters. -/
theorem length_text (milliseconds random : Nat) : (text milliseconds random).length = 26 := by
  rw [text, ← String.length_toList, String.toList_ofList, List.length_append, length_digits,
    length_digits]

theorem append_lt_append {front other : List Char} (h : front < other)
    (hlength : front.length = other.length) (back rest : List Char) :
    front ++ back < other ++ rest := by
  induction front generalizing other with
  | nil =>
    obtain rfl : other = [] := List.length_eq_zero_iff.1 hlength.symm
    exact absurd h (List.not_lt_nil _)
  | cons c front ih =>
    cases other with
    | nil => exact absurd h (List.not_lt_nil _)
    | cons d other =>
      rw [List.cons_append, List.cons_append, List.cons_lt_cons_iff]
      rcases List.cons_lt_cons_iff.1 h with hfirst | ⟨hsame, hothers⟩
      · exact .inl hfirst
      · exact .inr ⟨hsame, ih hothers (Nat.succ.inj hlength)⟩

theorem pairwise_alphabet : alphabet.Pairwise (· < ·) := by
  decide

theorem digit_lt_digit {m n : Nat} (h : m < n) (hn : n < 32) :
    (alphabet[m]?).getD '0' < (alphabet[n]?).getD '0' := by
  have hlength : alphabet.length = 32 := rfl
  rw [List.getElem?_eq_getElem (by omega), List.getElem?_eq_getElem (by omega)]
  exact List.pairwise_iff_getElem.1 pairwise_alphabet m n _ _ h

/-- As many digits of two numbers sort like the numbers. -/
theorem digits_lt_digits {width m n : Nat} (h : m < n) (hn : n < Nat.pow 32 width) :
    digits width m < digits width n := by
  induction width generalizing m n with
  | zero => exact absurd (Nat.lt_of_lt_of_le h (Nat.le_of_lt_succ hn)) (Nat.not_lt_zero m)
  | succ width ih =>
    have hn : n < Nat.pow 32 width * 32 := hn
    rw [digits, digits]
    by_cases hhigh : m / 32 < n / 32
    · have hdigits := ih hhigh (by omega)
      exact append_lt_append hdigits (by rw [length_digits, length_digits]) _ _
    · -- The digits in front are the same, so the last ones decide.
      have hsame : m / 32 = n / 32 := by omega
      rw [hsame]
      refine List.append_left_lt (List.cons_lt_cons_iff.2 (.inl ?_))
      exact digit_lt_digit (by omega) (by omega)

/-- Keys sort by their times, whatever their random bits are. -/
theorem text_lt_text {earlier later : Nat} (h : earlier < later) (hlater : later < Nat.pow 2 50)
    (random other : Nat) : text earlier random < text later other := by
  rw [String.lt_iff, text, text, String.toList_ofList, String.toList_ofList]
  have hdigits : digits 10 earlier < digits 10 later := digits_lt_digits h hlater
  exact append_lt_append hdigits (by rw [length_digits, length_digits]) _ _

end UiTemplate.Ulid
