import VonkForge.Foundations.Decimal

/-
  Decimal tokens in the store (`exact_integer_storage.py`).

  Integers without a bound are stored as text, and compared there by two predicates that are
  compiled to SQL. Texts are compared byte by byte, as under the collations `C` and `BINARY`.

  Main declarations:
    * `decodeDecimalInteger`
    * `decimalIntegerToken`
    * `stored_tokens_are_integers`
-/

----
-- Tokens
----

namespace VonkForge.Stored

open Decimal

/- `_TOKEN` matches the whole of the text. -/
def fullMatch : List Char → Bool
  | ['0'] => true
  | [] => false
  | first :: rest => decide ('1' ≤ first ∧ first ≤ '9') && rest.all fun letter =>
    decide ('0' ≤ letter ∧ letter ≤ '9')

/- `int` refuses a text of more digits than the interpreter allows, if it bounds them. -/
def decodeDecimalInteger (maxDigits : Option Nat) (text : List Char) : Except String Nat :=
  if fullMatch text = false then
    .error "stored integer must be a canonical nonnegative decimal token"
  else if maxDigits.any (· < text.length) then
    .error "Exceeds the limit for integer string conversion"
  else .ok (value text)

----
-- Predicates
----

variable (text : List Char) (letter : Char)

def replace : List Char := text.filter (· != letter)

/- `remaining`: the text without its digits, one after the other. -/
def remaining : List Char := ['0', '1', '2', '3', '4', '5', '6', '7', '8', '9'].foldl replace text

def atMost (left right : List Char) : Bool := decide (Text.encode left ≤ Text.encode right)

/- `_compile_token`. -/
def decimalIntegerToken : Bool :=
  text == ['0'] || atMost ['1'] (text.take 1) && atMost (text.take 1) ['9'] && remaining text == []

/- `_compile_at_most`. -/
def decimalIntegerAtMost (left right : List Char) : Bool :=
  decide (left.length < right.length) || left.length == right.length && atMost left right

----
-- Meanings
----

theorem isDigit_iff : letter.isDigit ↔ '0' ≤ letter ∧ letter ≤ '9' := by
  simp only [Char.isDigit, Bool.and_eq_true, decide_eq_true_eq, ge_iff_le]
  rfl

theorem positive_iff : '1' ≤ letter ∧ letter ≤ '9' ↔ letter.isDigit ∧ letter ≠ '0' := by
  rw [isDigit_iff, and_right_comm]
  refine and_congr_left fun _ => ?_
  simp only [Char.le_def, UInt32.le_iff_toNat_le, ne_eq, ← Char.toNat_inj]
  change 49 ≤ letter.toNat ↔ 48 ≤ letter.toNat ∧ ¬ letter.toNat = 48
  omega

theorem fullMatch_eq_canonical : fullMatch text = canonical text := by
  have hDigits (rest : List Char) :
      (rest.all fun letter => decide ('0' ≤ letter ∧ letter ≤ '9')) = rest.all Char.isDigit := by
    congr 1
    funext letter
    rw [Bool.eq_iff_iff, decide_eq_true_iff, isDigit_iff]
  unfold fullMatch canonical
  split
  · rfl
  · rfl
  · rename_i first rest hNotZero
    have hLonger : (first :: rest == ['0']) = false :=
      beq_false_of_ne fun hZero => hNotZero (List.cons.inj hZero).1 (List.cons.inj hZero).2
    rw [hDigits, hLonger, Bool.eq_iff_iff]
    simp only [Bool.false_or, List.head?_cons, Option.any_some, List.all_cons, Bool.and_eq_true,
      decide_eq_true_eq, positive_iff, bne_iff_ne]
    tauto

theorem remaining_eq_nil : remaining text = [] ↔ text.all Char.isDigit := by
  simp only [remaining, replace, List.foldl_cons, List.foldl_nil, List.filter_filter,
    List.filter_eq_nil_iff, List.all_eq_true, Bool.and_eq_true, bne_iff_ne, isDigit_iff]
  refine forall₂_congr fun letter _ => ?_
  simp only [Char.le_def, UInt32.le_iff_toNat_le, ne_eq, ← Char.toNat_inj]
  change ¬ _ ↔ 48 ≤ letter.toNat ∧ letter.toNat ≤ 57
  simp only [Char.reduceToNat]
  omega

/- A first character between two digits, byte by byte. -/
theorem between_iff :
    (atMost ['1'] [letter] && atMost [letter] ['9']) ↔ '1' ≤ letter ∧ letter ≤ '9' := by
  have hOne : Text.encode ['1'] = [49] := rfl
  have hNine : Text.encode ['9'] = [57] := rfl
  simp only [atMost, hOne, hNine, Bool.and_eq_true, decide_eq_true_eq]
  constructor
  · rintro ⟨hLow, hHigh⟩
    rcases Text.utf8EncodeChar_spec letter with ⟨first, _, hBytes, -⟩
    rw [← Text.encode_singleton] at hBytes
    rw [hBytes, List.cons_le_cons_iff] at hLow hHigh
    simp only [UInt8.lt_iff_toNat_lt, ← UInt8.toNat_inj, UInt8.reduceToNat] at hLow hHigh
    -- A first byte of ASCII is the character itself.
    have hMem : first ∈ Text.encode [letter] := by simp [hBytes]
    rw [← List.mem_singleton.mp (Text.mem_encode_ascii (by omega) hMem)]
    have hFrom : 49 ≤ first.toNat := by omega
    have hTo : first.toNat ≤ 57 := by omega
    interval_cases first.toNat <;> decide
  · intro hLetter
    have hDigit := ((positive_iff letter).mp hLetter).1
    have hBounds := digit_bounds hDigit
    have hLow : 49 ≤ letter.toNat := hLetter.1
    rw [encode_digit hDigit, List.cons_le_cons_iff, List.cons_le_cons_iff]
    have hSome : 1 ≤ digit letter := by omega
    have hTen := hBounds.2
    interval_cases digit letter <;> decide

theorem decimalIntegerToken_eq : decimalIntegerToken text = fullMatch text := by
  rw [fullMatch_eq_canonical, Bool.eq_iff_iff]
  unfold decimalIntegerToken canonical
  cases text with
  | nil => decide
  | cons first rest =>
    have hFirst : (first :: rest).take 1 = [first] := rfl
    rw [hFirst, Bool.or_eq_true, Bool.or_eq_true, Bool.and_eq_true, between_iff, positive_iff,
      beq_iff_eq, beq_iff_eq, remaining_eq_nil, Bool.and_eq_true, List.head?_cons, Option.any_some,
      Bool.and_eq_true, bne_iff_ne]

/-
  The database and the decoder take the same tokens, a token decodes to its value, and the order of
  the tokens is that of their values.
-/
theorem stored_tokens_are_integers :
    (∀ text, decimalIntegerToken text = fullMatch text) ∧
    (∀ maxDigits text n,
       decodeDecimalInteger maxDigits text = .ok n →
       fullMatch text = true ∧ n = value text) ∧
    ∀ left right,
      fullMatch left = true →
      fullMatch right = true →
      (decimalIntegerAtMost left right = true ↔
         value left ≤ value right) := by
  refine ⟨decimalIntegerToken_eq, ?_, ?_⟩
  · intro _ _ _ hDecoded
    unfold decodeDecimalInteger at hDecoded
    grind
  · intro left right hLeft hRight
    rw [fullMatch_eq_canonical] at hLeft hRight
    rw [← not_lt, value_lt_iff hRight hLeft]
    simp only [decimalIntegerAtMost, atMost, Bool.or_eq_true, Bool.and_eq_true, decide_eq_true_eq,
      beq_iff_eq, ← List.not_lt]
    rcases Nat.lt_trichotomy left.length right.length with hLess | hSame | hMore
    · simp [hLess, hLess.asymm, hLess.ne']
    · simp [hSame]
    · simp [hMore, hMore.asymm, hMore.ne']

end VonkForge.Stored
