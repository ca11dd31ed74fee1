import WebhookInbox.Library.Text

/-!
# Decimal numbers as text

`str` of an integer is a sign and decimal digits, and reading the digits gives the
number back.
-/

namespace Library.Text

/-- A natural number is written in its digits. -/
theorem ofInt_nat (number : Nat) :
    ofInt number = (Nat.toDigits 10 number).map CodePoint.ofChar := by
  rw [ofInt, lit, Int.toString_eq_repr, Int.repr_eq_if]
  simp

/-- A negative number is written with a sign. -/
theorem ofInt_negative {number : Int} (negative : number < 0) :
    ofInt number = 0x2D :: ofInt number.natAbs := by
  have magnitude : (-number).toNat = number.natAbs := by omega
  rw [ofInt_nat, ofInt, lit, Int.toString_eq_repr, Int.repr_eq_if, if_neg (by omega), magnitude]
  simp only [String.toList_append, Nat.toList_repr, List.map_append]
  rfl

/-- The code point of a decimal digit. -/
theorem ofChar_isDigit {char : Char} (digit : char.isDigit = true) :
    isAsciiDigit (CodePoint.ofChar char) = true := by
  simp only [Char.isDigit, Bool.and_eq_true, decide_eq_true_eq] at digit
  exact decide_eq_true digit

/-- Only digits are written for a natural number. -/
theorem ofInt_digits (number : Nat) : (ofInt number).all isAsciiDigit = true := by
  rw [ofInt_nat, List.all_map, List.all_eq_true]
  intro char member
  exact ofChar_isDigit (Nat.isDigit_of_mem_toDigits (by decide) (by decide) member)

/-- At least one digit is written. -/
theorem ofInt_ne_nil (number : Nat) : ofInt number ≠ [] := by
  rw [ofInt_nat]
  simp [Nat.toDigits_ne_nil]

/-- Digits are ASCII. -/
theorem ascii_of_digits {text : Str} (digits : text.all isAsciiDigit = true) : Ascii text := by
  intro point member
  have digit := of_decide_eq_true (List.all_eq_true.mp digits point member)
  omega

/-- Small numbers have few digits. -/
theorem ofInt_length_le {number bound : Nat} (positive : 0 < bound) (small : number < 10 ^ bound) :
    (ofInt number).length ≤ bound := by
  rw [ofInt_nat, List.length_map]
  exact (Nat.length_toDigits_le_iff (by decide) positive).mpr small

/-- The value of digits is what core reads from them. -/
theorem digitsValue_chars (chars : List Char) :
    digitsValue (chars.map CodePoint.ofChar) = (Nat.ofDigitChars 10 chars 0 : Nat) := by
  have folded : ∀ start : Nat,
      (chars.map CodePoint.ofChar).foldl
          (fun (value : Int) point => value * 10 + (point.val - 0x30 : Nat)) start =
        (Nat.ofDigitChars 10 chars start : Nat) := by
    induction chars with
    | nil => exact fun start => rfl
    | cons char rest inductionHypothesis =>
      intro start
      have next : ((10 * start + (char.toNat - '0'.toNat) : Nat) : Int) =
          start * 10 + ((CodePoint.ofChar char).val - 0x30 : Nat) := by
        push_cast
        rw [mul_comm]
        rfl
      rw [List.map_cons, List.foldl_cons, ← next, inductionHypothesis, Nat.ofDigitChars_cons]
  exact_mod_cast folded 0

/-- Reading the digits gives the number back. -/
theorem digitsValue_ofInt (number : Nat) : digitsValue (ofInt number) = number := by
  rw [ofInt_nat, digitsValue_chars, Nat.ofDigitChars_ten_toDigits]

/-- Digits are not white space. -/
theorem strip_digits {text : Str} (digits : text.all isAsciiDigit = true) : strip text = text := by
  have solid : ∀ point ∈ text, isSpace point = false := by
    intro point member
    have digit := of_decide_eq_true (List.all_eq_true.mp digits point member)
    simp only [isSpace, decide_eq_false_iff_not]
    omega
  refine stripBy_eq_self ?_ ?_
  · rintro point rest rfl
    exact solid point List.mem_cons_self
  · rintro before point rfl
    exact solid point (List.mem_append_right _ List.mem_cons_self)

end Library.Text
