import Mathlib.Data.List.TakeWhile
import UiTemplate.Json.Printer
import UiTemplate.Json.Token

/-!
Scanning what was printed. A string or a bracket is over with its last character, while
a word or a number is over with the character behind it. What can be said of all of them
alike is which tokens there are if the scanner stops there. Texts for which this is known
are put together with a mark between them, and so the tokens of a text follow from those
of its parts.
-/

namespace UiTemplate

theorem Text.digitsValue_toDigits (n : Nat) : Text.digitsValue (Nat.toDigits 10 n) = n := by
  have hvalue := @Nat.ofDigitChars_ten_toDigits n
  simp only [Nat.ofDigitChars_eq_foldl, Nat.mul_comm 10] at hvalue
  exact hvalue

theorem Text.hexValue?_hexDigit : ∀ n < 16, hexValue? (hexDigit n) = some n := by
  decide

/-- Decimal digits begin with a zero only if there is no other digit. -/
theorem Text.head?_toDigits_ne {n : Nat} (h : 0 < n) :
    (Nat.toDigits 10 n).head? ≠ some '0' := by
  induction n using Nat.strongRecOn with
  | ind n ih =>
  rw [Nat.toDigits_eq_if (by decide)]
  split
  · next hlt =>
    have hdigit : ∀ d < 10, 0 < d → Nat.digitChar d ≠ '0' := by decide
    rw [List.head?_singleton, ne_eq, Option.some_inj]
    exact hdigit n hlt h
  · next hle =>
    have hfront := ih (n / 10) (by omega) (by omega)
    rw [List.head?_append]
    cases hhead : (Nat.toDigits 10 (n / 10)).head? with
    | none => exact absurd (List.head?_eq_none_iff.1 hhead) Nat.toDigits_ne_nil
    | some c => rwa [hhead] at hfront

namespace Literal

/-- The literal that an integer is written as. -/
def ofInt (n : Int) : Literal where
  negative := decide (n < 0)
  integer := Nat.toDigits 10 n.natAbs
  fraction := []
  exponent := none

theorem digits?_toDigits (n : Nat) :
    digits? (Nat.toDigits 10 n) = some (Nat.toDigits 10 n, []) := by
  have hdigits : ∀ c ∈ Nat.toDigits 10 n, c.isDigit = true := fun c =>
    Nat.isDigit_of_mem_toDigits (by decide) (by decide)
  rw [digits?, List.takeWhile_eq_self_iff.2 hdigits, List.dropWhile_eq_nil_iff.2 hdigits]
  split
  · next h => exact absurd h Nat.toDigits_ne_nil
  · rfl

theorem not_leadingZero_toDigits (n : Nat) :
    ¬ ((Nat.toDigits 10 n).head? = some '0' ∧ (Nat.toDigits 10 n).length ≠ 1) := by
  rintro ⟨hhead, hlength⟩
  cases n with
  | zero => exact hlength rfl
  | succ n => exact Text.head?_toDigits_ne n.succ_pos hhead

/-- The literal of a printed integer is the integer. -/
theorem ofChars?_integerText (n : Int) : ofChars? (Number.integerText n) = some (ofInt n) := by
  rw [Number.integerText, ofInt]
  split
  · next hnegative =>
    simp only [ofChars?, digits?_toDigits, Option.bind_eq_bind, Option.bind_some,
      if_neg (not_leadingZero_toDigits _), decide_eq_true hnegative]
    rfl
  · next hnegative =>
    rw [ofChars?]
    · simp only [digits?_toDigits, Option.bind_eq_bind, Option.bind_some,
        if_neg (not_leadingZero_toDigits _), decide_eq_false hnegative]
      rfl
    · intro rest hrest
      have hdigit : '-'.isDigit = true :=
        @Nat.isDigit_of_mem_toDigits 10 n.natAbs _ (by decide) (by decide)
          (hrest ▸ List.mem_cons_self)
      cases hdigit

end Literal

theorem Whole.ofInt?_value (n : Whole) : Whole.ofInt? n.value = some n :=
  dif_pos ⟨n.atLeast, n.below⟩

theorem Number.ofLiteral?_ofInt (n : Whole) :
    ofLiteral? (Literal.ofInt n.value) = some (.whole n) := by
  simp only [ofLiteral?, Literal.ofInt, Text.digitsValue_toDigits, List.isEmpty_nil,
    Bool.not_true, Option.isSome_none, Bool.or_self, Bool.false_eq_true, if_false]
  by_cases hnegative : n.value < 0
  · have habs : -(n.value.natAbs : Int) = n.value := by omega
    have hne : (n.value.natAbs : Int) ≠ 0 := by omega
    simp only [hnegative, decide_true, if_true, if_neg hne, habs, Whole.ofInt?_value]
  · have habs : (n.value.natAbs : Int) = n.value := by omega
    simp only [hnegative, decide_false, Bool.false_eq_true, if_false, habs, Whole.ofInt?_value]

namespace Json

theorem Piece.decode?_unit_cons {n : Nat} (h : n < 0xD800) (rest : List Piece) :
    decode? (.unit n :: rest) = (decode? rest).map (Char.ofNat n :: ·) := by
  have hlow : ¬ (0xD800 ≤ n ∧ n < 0xDC00) := by omega
  have hhigh : ¬ (0xDC00 ≤ n ∧ n < 0xE000) := by omega
  have hboth : ¬ (0xD800 ≤ n ∧ n < 0xE000) := by omega
  rcases rest with _ | ⟨_ | m, rest⟩
  · simp [decode?, hboth]
  · simp [decode?, hboth]
  · rw [decode?, if_neg hlow, if_neg hhigh]

/-- The piece stands for the character, whatever comes behind it. -/
def Piece.Means (piece : Piece) (c : Char) : Prop :=
  ∀ rest, decode? (piece :: rest) = (decode? rest).map (c :: ·)

theorem Piece.means_char (c : Char) : Means (.char c) c :=
  fun _ => rfl

theorem Piece.means_unit {c : Char} (h : c.toNat < 0xD800) : Means (.unit c.toNat) c := by
  intro rest
  rw [decode?_unit_cons h, Char.ofNat_toNat]

namespace Scanner

variable {text other : List Char} {tokens others : List Token} {token : Token} {c d : Char}
  {scanner closed : Scanner} {pieces : List Piece} {piece : Piece}

/-- Inside of a string, the scanner reads the text as one piece more. -/
def ReadsPiece (text : List Char) (piece : Piece) : Prop :=
  ∀ reversed pieces, text.foldlM step ⟨reversed, .string pieces .outside⟩ =
    some ⟨reversed, .string (piece :: pieces) .outside⟩

theorem readsPiece_escaped (h : escaped? d = some c) (hd : d ≠ 'u') :
    ReadsPiece ['\\', d] (.char c) := by
  intro reversed pieces
  simp [List.foldlM, step, inString?, h, hd]

theorem readsPiece_unit {n : Nat} (h : n < 256) :
    ReadsPiece ['\\', 'u', '0', '0', Text.hexDigit (n / 16), Text.hexDigit (n % 16)] (.unit n) := by
  intro reversed pieces
  have hzero : Text.hexValue? '0' = some 0 := rfl
  have hhigh := Text.hexValue?_hexDigit (n / 16) (by omega)
  have hlow := Text.hexValue?_hexDigit (n % 16) (by omega)
  have hn : n / 16 * 16 + n % 16 = n := by omega
  simp [List.foldlM, step, inString?, hzero, hhigh, hlow, hn]

theorem readsPiece_plain (hquote : c ≠ '"') (hbackslash : c ≠ '\\') (hcontrol : ¬ c.val < 0x20) :
    ReadsPiece [c] (.char c) := by
  intro reversed pieces
  simp [List.foldlM, step, inString?, hquote, hbackslash, hcontrol]

theorem exists_readsPiece_escaped (h : escaped? d = some c) (hd : d ≠ 'u') :
    ∃ piece, ReadsPiece ['\\', d] piece ∧ piece.Means c :=
  ⟨.char c, readsPiece_escaped h hd, Piece.means_char c⟩

/-- A character is printed as a piece that stands for it. -/
theorem exists_readsPiece (c : Char) :
    ∃ piece, ReadsPiece (escapeChar c) piece ∧ piece.Means c := by
  unfold escapeChar
  -- the characters with an escape of their own
  iterate 7
    split
    · next h =>
      subst h
      exact exists_readsPiece_escaped rfl (by decide)
  split
  · next h =>
    have hcode : c.toNat < 0x20 := h
    exact ⟨.unit c.toNat, readsPiece_unit (by omega), Piece.means_unit (by omega)⟩
  · next hquote hbackslash _ _ _ _ _ hcontrol =>
    exact ⟨.char c, readsPiece_plain hquote hbackslash hcontrol, Piece.means_char c⟩

/-- What the characters of a string are printed as is read as pieces that stand for
them. -/
theorem exists_readsPieces (text : List Char) :
    ∃ pieces, Piece.decode? pieces = some text ∧
      ∀ reversed before, (text.flatMap escapeChar).foldlM step
        ⟨reversed, .string before .outside⟩ =
          some ⟨reversed, .string (pieces.reverse ++ before) .outside⟩ := by
  induction text with
  | nil => exact ⟨[], rfl, fun reversed before => rfl⟩
  | cons c text ih =>
    obtain ⟨piece, hreads, hmeans⟩ := exists_readsPiece c
    obtain ⟨pieces, hdecode, hrest⟩ := ih
    refine ⟨piece :: pieces, ?_, ?_⟩
    · rw [hmeans, hdecode, Option.map_some]
    · intro reversed before
      rw [List.flatMap_cons, List.foldlM_append, hreads, List.reverse_cons, List.append_assoc]
      exact hrest reversed (piece :: before)

/-- Between two tokens the scanner reads the text and is between two tokens again. -/
def Completes (text : List Char) (tokens : List Token) : Prop :=
  ∀ reversed, text.foldlM step ⟨reversed, .none⟩ = some ⟨tokens.reverse ++ reversed, .none⟩

/-- Between two tokens the scanner reads the text and has these tokens if it stops. -/
def Scans (text : List Char) (tokens : List Token) : Prop :=
  ∀ reversed, ∃ last, text.foldlM step ⟨reversed, .none⟩ = some last ∧
    last.close? = some ⟨tokens.reverse ++ reversed, .none⟩

theorem Completes.scans (h : Completes text tokens) : Scans text tokens :=
  fun reversed => ⟨_, h reversed, rfl⟩

theorem completes_nil : Completes [] [] :=
  fun _ => rfl

/-- Tokens that are complete can be followed by any others. -/
theorem Completes.append (h : Completes text tokens) (hother : Scans other others) :
    Scans (text ++ other) (tokens ++ others) := by
  intro reversed
  obtain ⟨last, hlast, hclose⟩ := hother (tokens.reverse ++ reversed)
  refine ⟨last, ?_, ?_⟩
  · rw [List.foldlM_append, h]
    exact hlast
  · rw [hclose, List.reverse_append, List.append_assoc]

/-- A mark that is a token by itself and cannot go on with a word or a number. -/
structure IsMark (c : Char) (token : Token) : Prop where
  not_word : isWordChar c = false
  not_number : isNumberChar c = false
  between : ∀ reversed, between? ⟨reversed, .none⟩ c = some ⟨token :: reversed, .none⟩

/-- A mark ends what the scanner is inside of. -/
theorem IsMark.step (h : IsMark c token) (hclose : scanner.close? = some closed) :
    scanner.step c = closed.between? c := by
  obtain ⟨reversed, current⟩ := scanner
  cases current with
  | none =>
    cases hclose
    rfl
  | word =>
    simp only [Scanner.step, h.not_word, Bool.false_eq_true, if_false, hclose]
    rfl
  | number =>
    simp only [Scanner.step, h.not_number, Bool.false_eq_true, if_false, hclose]
    rfl
  | string => cases hclose

/-- A mark completes what is in front of it. -/
theorem Scans.mark (h : Scans text tokens) (hmark : IsMark c token) :
    Completes (text ++ [c]) (tokens ++ [token]) := by
  intro reversed
  obtain ⟨last, hlast, hclose⟩ := h reversed
  rw [List.foldlM_append, hlast, Option.bind_eq_bind, Option.bind_some, List.foldlM_cons,
    hmark.step hclose, hmark.between, List.reverse_append]
  rfl

theorem IsMark.completes (h : IsMark c token) : Completes [c] [token] :=
  completes_nil.scans.mark h

theorem isMark_comma : IsMark ',' .comma := ⟨rfl, rfl, fun _ => rfl⟩

theorem isMark_colon : IsMark ':' .colon := ⟨rfl, rfl, fun _ => rfl⟩

theorem isMark_openArray : IsMark '[' .openArray := ⟨rfl, rfl, fun _ => rfl⟩

theorem isMark_closeArray : IsMark ']' .closeArray := ⟨rfl, rfl, fun _ => rfl⟩

theorem isMark_openObject : IsMark '\x7b' .openObject := ⟨rfl, rfl, fun _ => rfl⟩

theorem isMark_closeObject : IsMark '\x7d' .closeObject := ⟨rfl, rfl, fun _ => rfl⟩

/-- A printed string is one token. -/
theorem exists_completes_quote (text : List Char) :
    ∃ pieces, Completes (quote text) [.string pieces] ∧ Piece.decode? pieces = some text := by
  obtain ⟨pieces, hdecode, hreads⟩ := exists_readsPieces text
  refine ⟨pieces, ?_, hdecode⟩
  intro reversed
  have hopen : step ⟨reversed, .none⟩ '"' = some ⟨reversed, .string [] .outside⟩ := rfl
  have hclose : step ⟨reversed, .string (pieces.reverse ++ []) .outside⟩ '"' =
      some ⟨.string pieces :: reversed, .none⟩ := by
    simp [step, inString?]
  rw [quote, List.foldlM_cons, hopen, Option.bind_eq_bind, Option.bind_some, List.foldlM_append,
    hreads, Option.bind_eq_bind, Option.bind_some, List.foldlM_cons, hclose]
  rfl

theorem exists_integerText (n : Int) : ∃ first rest, Number.integerText n = first :: rest ∧
    (first = '-' ∨ first.isDigit = true) ∧ ∀ c ∈ rest, c.isDigit = true := by
  have hdigit : ∀ c ∈ Nat.toDigits 10 n.natAbs, c.isDigit = true := fun c =>
    Nat.isDigit_of_mem_toDigits (by decide) (by decide)
  rw [Number.integerText]
  split
  · exact ⟨'-', _, rfl, .inl rfl, hdigit⟩
  · cases hdigits : Nat.toDigits 10 n.natAbs with
    | nil => exact absurd hdigits Nat.toDigits_ne_nil
    | cons first rest =>
      rw [hdigits, List.forall_mem_cons] at hdigit
      exact ⟨first, rest, rfl, .inr hdigit.1, hdigit.2⟩

theorem step_digit (reversed : List Token) (h : c = '-' ∨ c.isDigit = true) :
    step ⟨reversed, .none⟩ c = some ⟨reversed, .number [c]⟩ := by
  have hne : ∀ d : Char, d.isDigit = false → d ≠ '-' → c ≠ d := by
    rintro d hdigit hminus rfl
    rcases h with heq | heq
    · exact hminus heq
    · rw [hdigit] at heq
      cases heq
  have hspace : isSpace c = false := by
    simp [isSpace, hne ' ' rfl (by decide), hne '\t' rfl (by decide), hne '\n' rfl (by decide),
      hne '\r' rfl (by decide)]
  have hquote : c ≠ '"' := hne '"' rfl (by decide)
  simp only [step, between?, hspace, Bool.false_eq_true, if_false, if_neg hquote, if_pos h]

theorem foldlM_step_digits (reversed : List Token) (before : List Char)
    (h : ∀ c ∈ text, c.isDigit = true) :
    text.foldlM step ⟨reversed, .number before⟩ =
      some ⟨reversed, .number (text.reverse ++ before)⟩ := by
  induction text generalizing before with
  | nil => rfl
  | cons c text ih =>
    obtain ⟨hc, htext⟩ := List.forall_mem_cons.1 h
    have hstep : step ⟨reversed, .number before⟩ c = some ⟨reversed, .number (c :: before)⟩ := by
      simp [step, isNumberChar, hc]
    rw [List.foldlM_cons, hstep, Option.bind_eq_bind, Option.bind_some, ih _ htext,
      List.reverse_cons, List.append_assoc]
    rfl

/-- A printed integer is scanned as one number, which ends where the text does. -/
theorem scans_integerText (n : Int) :
    Scans (Number.integerText n) [.number (Literal.ofInt n)] := by
  intro reversed
  obtain ⟨first, rest, htext, hfirst, hrest⟩ := exists_integerText n
  refine ⟨⟨reversed, .number (rest.reverse ++ [first])⟩, ?_, ?_⟩
  · rw [htext, List.foldlM_cons, step_digit reversed hfirst]
    exact foldlM_step_digits reversed [first] hrest
  · have hreverse : (rest.reverse ++ [first]).reverse = Number.integerText n := by
      simp [htext]
    simp only [close?, hreverse, Literal.ofChars?_integerText]
    rfl

end Scanner

end Json

end UiTemplate
