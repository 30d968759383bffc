import Mathlib.Data.List.Basic
import UiTemplate.Number

/-!
The characters that numbers are shown with. However it is laid out, a number in a text
that is shown is digits, perhaps with a point among them and a minus sign in front. So
the text of a number can be told from whatever is put around it.
-/

namespace UiTemplate

namespace Decimal

variable {c : Char}

theorem isDigit_of_mem_ofCount {count : Nat} {exponent : Int}
    (h : c ∈ (Digits.ofCount count exponent).digits) : c.isDigit = true := by
  rw [Digits.ofCount, List.mem_reverse] at h
  have hreversed := List.mem_reverse.1 ((List.dropWhile_sublist _).subset h)
  exact Nat.isDigit_of_mem_toDigits (by decide) (by decide) hreversed

theorem isDigit_of_mem_shortest {tie : Tie} {rank : Nat} (h : c ∈ (shortest tie rank).digits) :
    c.isDigit = true := by
  unfold shortest at h
  split at h
  · rw [List.mem_singleton.1 h]
    rfl
  · simp only at h
    split at h
    · exact isDigit_of_mem_ofCount h
    · exact isDigit_of_mem_ofCount h

theorem isDigit_or_eq_of_mem_plainText {wholePoint : Bool} {d : Digits}
    (hdigits : ∀ digit ∈ d.digits, digit.isDigit = true) (h : c ∈ plainText wholePoint d) :
    c.isDigit = true ∨ c = '.' := by
  have hzero : ∀ n, c ∈ List.replicate n '0' → c.isDigit = true := by
    intro n hmem
    rw [(List.mem_replicate.1 hmem).2]
    rfl
  simp only [plainText] at h
  by_cases hsmall : d.leading < 0
  · simp only [if_pos hsmall, List.mem_cons, List.mem_append] at h
    rcases h with rfl | rfl | hmem | hmem
    · exact .inl rfl
    · exact .inr rfl
    · exact .inl (hzero _ hmem)
    · exact .inl (hdigits c hmem)
  rw [if_neg hsmall] at h
  by_cases hwhole : d.digits.length ≤ d.leading.toNat + 1
  · simp only [if_pos hwhole, List.mem_append] at h
    rcases h with (hmem | hmem) | hmem
    · exact .inl (hdigits c hmem)
    · exact .inl (hzero _ hmem)
    · cases wholePoint with
      | false => cases hmem
      | true =>
        rcases List.mem_pair.1 hmem with rfl | rfl
        · exact .inr rfl
        · exact .inl rfl
  · simp only [if_neg hwhole, List.mem_append, List.mem_cons] at h
    rcases h with hmem | rfl | hmem
    · exact .inl (hdigits c (List.mem_of_mem_take hmem))
    · exact .inr rfl
    · exact .inl (hdigits c (List.mem_of_mem_drop hmem))

end Decimal

namespace Number

theorem isDigit_or_eq_of_mem_integerText {n : Int} {c : Char} (h : c ∈ integerText n) :
    c.isDigit = true ∨ c = '-' := by
  have hdigits : ∀ m, c ∈ Nat.toDigits 10 m → c.isDigit = true := fun m =>
    Nat.isDigit_of_mem_toDigits (by decide) (by decide)
  unfold integerText at h
  split at h
  · rcases List.mem_cons.1 h with rfl | hmem
    · exact .inr rfl
    · exact .inl (hdigits _ hmem)
  · exact .inl (hdigits _ h)

/-- A number is shown without an exponent, and nothing groups its digits. -/
theorem isDigit_or_eq_of_mem_textChars {n : Number} {c : Char} (h : c ∈ n.textChars) :
    c.isDigit = true ∨ c = '-' ∨ c = '.' := by
  cases n with
  | whole n => exact (isDigit_or_eq_of_mem_integerText h).imp_right .inl
  | real x =>
    have hsign : c ∈ (if x.negative then ['-'] else []) → c = '-' := by
      intro hmem
      split at hmem
      · exact List.mem_singleton.1 hmem
      · cases hmem
    simp only [textChars, Decimal.Layout.write, textLayout] at h
    split at h
    · next digits hexact =>
      obtain ⟨natural, _, rfl⟩ := Option.map_eq_some_iff.1 hexact
      rcases List.mem_append.1 h with hmem | hmem
      · exact .inr (.inl (hsign hmem))
      · exact .inl (Nat.isDigit_of_mem_toDigits (by decide) (by decide) hmem)
    · rcases List.mem_append.1 h with hmem | hmem
      · exact .inr (.inl (hsign hmem))
      · have hplain := Decimal.isDigit_or_eq_of_mem_plainText
          (fun _ => Decimal.isDigit_of_mem_shortest) hmem
        exact hplain.imp_right .inr

end Number

end UiTemplate
