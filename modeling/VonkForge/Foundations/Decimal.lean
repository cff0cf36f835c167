import VonkForge.Foundations.Utf8

/-
  Decimal numerals, and their order as texts.

  A canonical numeral has no leading zero. Of two canonical numerals the shorter one is the smaller
  number, and of two that are equally long the one whose bytes come first.

  Main declarations:
    * `value`
    * `encode_lt_encode`
    * `value_lt_of_length_lt`
    * `value_lt_iff`
-/

----
-- Digits
----

namespace Decimal

def digit (letter : Char) : Nat := letter.toNat - 48

/- The number that a text of digits denotes. -/
def value : List Char → Nat
  | [] => 0
  | letter :: digits => digit letter * 10 ^ digits.length + value digits

/- `0`, or digits of which the first is not `0`. -/
def canonical (text : List Char) : Bool :=
  text == ['0'] || (text.head?.any fun letter => letter.isDigit && letter != '0') &&
    text.all Char.isDigit

variable {left right : List Char} {letter : Char}

theorem digit_bounds (hDigit : letter.isDigit) :
    letter.toNat = digit letter + 48 ∧ digit letter < 10 := by
  simp only [Char.isDigit, Bool.and_eq_true, decide_eq_true_eq, ge_iff_le] at hDigit
  have hLow : 48 ≤ letter.toNat := hDigit.1
  have hHigh : letter.toNat ≤ 57 := hDigit.2
  unfold digit
  omega

theorem value_lt (hDigits : left.all Char.isDigit) : value left < 10 ^ left.length := by
  induction left with
  | nil => simp [value]
  | cons _ _ ih =>
    rw [List.all_cons, Bool.and_eq_true] at hDigits
    have hRest := ih hDigits.2
    have hDigit := (digit_bounds hDigits.1).2
    rw [value, List.length_cons, Nat.pow_succ]
    nlinarith

theorem encode_digit (hDigit : letter.isDigit) (digits : List Char) :
    Text.encode (letter :: digits) = UInt8.ofNat (digit letter + 48) :: Text.encode digits := by
  have hBounds := digit_bounds hDigit
  have hSmall : letter.val.toNat ≤ 127 := by
    change letter.toNat ≤ 127
    omega
  rw [Text.encode_cons, Text.encode_singleton, String.utf8EncodeChar, ← hBounds.1]
  simp only [if_pos hSmall]
  rfl

/- Equally many digits are in the order of their bytes. -/
theorem encode_lt_encode
    (hLeft : left.all Char.isDigit)
    (hRight : right.all Char.isDigit)
    (hLength : left.length = right.length) :
    Text.encode left < Text.encode right ↔
      value left < value right := by
  induction left generalizing right with
  | nil =>
    obtain rfl := List.length_eq_zero_iff.mp hLength.symm
    simp [Text.encode, value]
  | cons first digits ih =>
    cases right with
    | nil => cases hLength
    | cons second others =>
      rw [List.all_cons, Bool.and_eq_true] at hLeft hRight
      have hSame : digits.length = others.length := by simpa using hLength
      have hFirst := (digit_bounds hLeft.1).2
      have hSecond := (digit_bounds hRight.1).2
      have hLow := value_lt hLeft.2
      have hHigh := value_lt hRight.2
      have hByte {a b : Nat} (hA : a < 10) (hB : b < 10) :
          (UInt8.ofNat (a + 48) < UInt8.ofNat (b + 48) ↔ a < b) ∧
          (UInt8.ofNat (a + 48) = UInt8.ofNat (b + 48) ↔ a = b) := by
        interval_cases a <;> interval_cases b <;> decide
      have hBytes := hByte hFirst hSecond
      rw [encode_digit hLeft.1, encode_digit hRight.1, List.cons_lt_cons_iff, hBytes.1, hBytes.2,
        ih hLeft.2 hRight.2 hSame, value, value, hSame]
      rw [hSame] at hLow
      rcases Nat.lt_trichotomy (digit first) (digit second) with hLess | hEqual | hMore
      · have hStep := Nat.mul_le_mul_right (10 ^ others.length) (Nat.succ_le_of_lt hLess)
        rw [Nat.succ_mul] at hStep
        simp only [hLess, true_or, true_iff]
        omega
      · simp [hEqual]
      · have hStep := Nat.mul_le_mul_right (10 ^ others.length) (Nat.succ_le_of_lt hMore)
        rw [Nat.succ_mul] at hStep
        simp only [hMore.asymm, hMore.ne', false_and, or_self, false_iff]
        omega

----
-- Canonical Numerals
----

section

variable (hLeft : canonical left = true)

include hLeft

theorem canonical_digits : left.all Char.isDigit ∧ 0 < left.length := by
  simp only [canonical, Bool.or_eq_true, beq_iff_eq, Bool.and_eq_true] at hLeft
  rcases hLeft with rfl | ⟨hHead, hDigits⟩
  · decide
  · refine ⟨hDigits, List.length_pos_of_ne_nil ?_⟩
    rintro rfl
    cases hHead

theorem le_value (hLong : 1 < left.length) : 10 ^ (left.length - 1) ≤ value left := by
  simp only [canonical, Bool.or_eq_true, beq_iff_eq, Bool.and_eq_true] at hLeft
  rcases hLeft with rfl | ⟨hHead, -⟩
  · cases Nat.lt_irrefl 1 hLong
  · cases left with
    | nil => cases hHead
    | cons letter =>
      simp only [List.head?_cons, Option.any_some, Bool.and_eq_true, bne_iff_ne] at hHead
      have hBounds := digit_bounds hHead.1
      have hSome : 1 ≤ digit letter := by
        refine Nat.one_le_iff_ne_zero.mpr fun hZero => hHead.2 ?_
        rw [hZero] at hBounds
        exact Char.toNat_inj.mp hBounds.1
      rw [value, List.length_cons, Nat.add_sub_cancel]
      exact (Nat.le_mul_of_pos_left _ hSome).trans (Nat.le_add_right _ _)

section

variable (hRight : canonical right = true)

include hRight

/- A shorter text of digits is a smaller number. -/
theorem value_lt_of_length_lt (hLess : left.length < right.length) :
    value left < value right := by
  have hDigits := canonical_digits hLeft
  calc value left
      < 10 ^ left.length := value_lt hDigits.1
    _ ≤ 10 ^ (right.length - 1) := Nat.pow_le_pow_right (by decide) (by omega)
    _ ≤ value right := le_value hRight (by omega)

/- The order of the numbers, read off their numerals. -/
theorem value_lt_iff :
    value left < value right ↔
      left.length < right.length ∨
      left.length = right.length ∧
      Text.encode left < Text.encode right := by
  rcases Nat.lt_trichotomy left.length right.length with hLess | hSame | hMore
  · simp [hLess, value_lt_of_length_lt hLeft hRight hLess]
  · rw [encode_lt_encode (canonical_digits hLeft).1 (canonical_digits hRight).1 hSame]
    simp [hSame]
  · have hValue := value_lt_of_length_lt hRight hLeft hMore
    simp only [hMore.asymm, hMore.ne', false_and, or_self, iff_false]
    omega

theorem eq_of_value_eq
    (hSame : value left = value right) : left = right := by
  have hLess := mt (value_lt_iff hLeft hRight).mpr hSame.not_lt
  have hMore := mt (value_lt_iff hRight hLeft).mpr hSame.not_gt
  push Not at hLess hMore
  have hLength := le_antisymm hMore.1 hLess.1
  exact Text.encode_injective (List.le_antisymm (List.not_lt.mp (hMore.2 hLength.symm))
    (List.not_lt.mp (hLess.2 hLength)))

end

end

end Decimal
