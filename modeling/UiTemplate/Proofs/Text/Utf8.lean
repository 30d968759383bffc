import UiTemplate.Text.Utf8

/-!
Texts survive their bytes. A text that is written as bytes is read back by the
strict reader, which refuses nothing that was written, and by the forgiving one,
which replaces nothing in it. For the forgiving reader the bytes of one character
are followed through its states: the first byte says how many are owed, and the
ranges that rule out overlong and surrogate sequences admit what comes next.
-/

namespace UiTemplate.Text.Utf8

theorem toList_toUTF8 (text : String) :
    text.toUTF8.data.toList = text.toList.flatMap String.utf8EncodeChar := by
  rw [String.toUTF8_eq_toByteArray, ← String.utf8Encode_toList, List.utf8Encode,
    List.toList_data_toByteArray]

/-- The strict reader accepts what was written. -/
theorem decode?_toUTF8 (text : String) : decode? text.toUTF8 = some text := by
  rw [decode?, String.toUTF8_eq_toByteArray, String.fromUTF8?, dif_pos text.isValidUTF8]
  rfl

/-- A number of bytes is owed, and a byte with these six bits may come next. -/
def Awaits (reader : Reader) (reversed : List Char) (owed bits next : Nat) : Prop :=
  ∃ low high, reader = ⟨reversed, some ⟨owed, low, high, bits⟩⟩ ∧
    low ≤ next + 0x80 ∧ next + 0x80 ≤ high

variable {reader : Reader} {reversed : List Char} {owed bits next : Nat}

theorem toNat_ofNat {byte : Nat} (h : byte < 0x100) : (UInt8.ofNat byte).toNat = byte :=
  Nat.mod_eq_of_lt h

/-- A byte that is awaited adds its six bits and leaves one less to come. -/
theorem Awaits.step (h : Awaits reader reversed (owed + 2) bits next) (hnext : next < 0x40)
    (after : Nat) (hafter : after < 0x40) :
    Awaits (reader.step (UInt8.ofNat (next + 0x80))) reversed (owed + 1) (bits * 0x40 + next)
      after := by
  obtain ⟨low, high, rfl, hlow, hhigh⟩ := h
  refine ⟨0x80, 0xBF, ?_, by omega, by omega⟩
  rw [Reader.step, toNat_ofNat (by omega)]
  simp [hlow, hhigh]

/-- The last byte that is awaited completes a character. -/
theorem Awaits.last (h : Awaits reader reversed 1 bits next) (hnext : next < 0x40) :
    reader.step (UInt8.ofNat (next + 0x80)) =
      ⟨Char.ofNat (bits * 0x40 + next) :: reversed, none⟩ := by
  obtain ⟨low, high, rfl, hlow, hhigh⟩ := h
  rw [Reader.step, toNat_ofNat (by omega)]
  simp [hlow, hhigh]

theorem step_first (reversed : List Char) {byte : Nat} (h : byte < 0x100) :
    Reader.step ⟨reversed, none⟩ (UInt8.ofNat byte) = Reader.first reversed byte := by
  rw [Reader.step, toNat_ofNat h]

theorem awaits_first_of_two (reversed : List Char) (n : Nat) (hlow : 0x80 ≤ n) (hhigh : n < 0x800) :
    Awaits (Reader.first reversed (n / 0x40 % 0x20 + 0xC0)) reversed 1 (n / 0x40) (n % 0x40) := by
  refine ⟨0x80, 0xBF, ?_, by omega, by omega⟩
  rw [Reader.first, if_neg (by omega), if_pos (by omega)]
  have hbits : n / 0x40 % 0x20 + 0xC0 - 0xC0 = n / 0x40 := by omega
  rw [hbits]

/-- Neither an overlong sequence nor a surrogate: the next byte is in the range
that the first one sets. -/
theorem awaits_first_of_three (reversed : List Char) (n : Nat) (hlow : 0x800 ≤ n)
    (hhigh : n < 0x10000) (hvalid : n.isValidChar) :
    Awaits (Reader.first reversed (n / 0x1000 % 0x10 + 0xE0)) reversed 2 (n / 0x1000)
      (n / 0x40 % 0x40) := by
  have hvalid : n < 0xD800 ∨ 0xDFFF < n := hvalid.imp_right And.left
  rw [Reader.first, if_neg (by omega), if_neg (by omega)]
  by_cases hzero : n / 0x1000 = 0
  · refine ⟨0xA0, 0xBF, ?_, by omega, by omega⟩
    rw [if_pos (by omega), hzero]
  rw [if_neg (by omega)]
  by_cases hsurrogate : n / 0x1000 = 0xD
  · refine ⟨0x80, 0x9F, ?_, by omega, by omega⟩
    rw [if_pos (by omega), hsurrogate]
  · refine ⟨0x80, 0xBF, ?_, by omega, by omega⟩
    have hbits : n / 0x1000 % 0x10 + 0xE0 - 0xE0 = n / 0x1000 := by omega
    rw [if_neg (by omega), if_pos (by omega), hbits]

theorem awaits_first_of_four (reversed : List Char) (n : Nat) (hlow : 0x10000 ≤ n)
    (hhigh : n < 0x110000) :
    Awaits (Reader.first reversed (n / 0x40000 % 8 + 0xF0)) reversed 3 (n / 0x40000)
      (n / 0x1000 % 0x40) := by
  rw [Reader.first, if_neg (by omega), if_neg (by omega), if_neg (by omega), if_neg (by omega),
    if_neg (by omega)]
  by_cases hzero : n / 0x40000 = 0
  · refine ⟨0x90, 0xBF, ?_, by omega, by omega⟩
    rw [if_pos (by omega), hzero]
  rw [if_neg (by omega)]
  by_cases htop : n / 0x40000 = 4
  · refine ⟨0x80, 0x8F, ?_, by omega, by omega⟩
    rw [if_neg (by omega), if_pos (by omega), htop]
  · refine ⟨0x80, 0xBF, ?_, by omega, by omega⟩
    have hbits : n / 0x40000 % 8 + 0xF0 - 0xF0 = n / 0x40000 := by omega
    rw [if_pos (by omega), hbits]

/-- The bytes of a character are read as that character. -/
theorem foldl_step_utf8EncodeChar (reversed : List Char) (c : Char) :
    (String.utf8EncodeChar c).foldl Reader.step ⟨reversed, none⟩ = ⟨c :: reversed, none⟩ := by
  have hvalid : c.val.toNat.isValidChar := c.valid
  have hrange : c.val.toNat < 0x110000 := by
    rcases hvalid with h | ⟨_, h⟩
    · omega
    · exact h
  have hchar : Char.ofNat c.val.toNat = c := Char.ofNat_toNat c
  unfold String.utf8EncodeChar
  generalize c.val.toNat = n at *
  simp only
  split
  · rw [List.foldl_cons, List.foldl_nil, step_first _ (by omega), Reader.first, if_pos (by omega),
      hchar]
  split
  · have hfirst := awaits_first_of_two reversed n (by omega) (by omega)
    have hbits : n / 0x40 * 0x40 + n % 0x40 = n := by omega
    rw [List.foldl_cons, List.foldl_cons, List.foldl_nil, step_first _ (by omega),
      hfirst.last (by omega), hbits, hchar]
  split
  · have hfirst := awaits_first_of_three reversed n (by omega) (by omega) hvalid
    have hsecond := hfirst.step (by omega) (n % 0x40) (by omega)
    have hbits : (n / 0x1000 * 0x40 + n / 0x40 % 0x40) * 0x40 + n % 0x40 = n := by omega
    rw [List.foldl_cons, List.foldl_cons, List.foldl_cons, List.foldl_nil, step_first _ (by omega),
      hsecond.last (by omega), hbits, hchar]
  · have hfirst := awaits_first_of_four reversed n (by omega) (by omega)
    have hsecond := hfirst.step (by omega) (n / 0x40 % 0x40) (by omega)
    have hthird := hsecond.step (by omega) (n % 0x40) (by omega)
    have hbits : ((n / 0x40000 * 0x40 + n / 0x1000 % 0x40) * 0x40 + n / 0x40 % 0x40) * 0x40 +
        n % 0x40 = n := by omega
    rw [List.foldl_cons, List.foldl_cons, List.foldl_cons, List.foldl_cons, List.foldl_nil,
      step_first _ (by omega), hthird.last (by omega), hbits, hchar]

/-- The reader gets every character back from its bytes and owes nothing between them. -/
theorem foldl_step_flatMap (text reversed : List Char) :
    (text.flatMap String.utf8EncodeChar).foldl Reader.step ⟨reversed, none⟩ =
      ⟨text.reverse ++ reversed, none⟩ := by
  induction text generalizing reversed with
  | nil => rfl
  | cons c text ih =>
    rw [List.flatMap_cons, List.foldl_append, foldl_step_utf8EncodeChar, ih, List.reverse_cons,
      List.append_assoc, List.singleton_append]

/-- The forgiving reader has nothing to forgive in what was written. -/
theorem decodeLossy_toUTF8 (text : String) : decodeLossy text.toUTF8.data.toList = text := by
  rw [decodeLossy, toList_toUTF8, foldl_step_flatMap]
  simp

end UiTemplate.Text.Utf8
