import VonkForge.Foundations.Decimal

/-
  Integers on the wire, and what both ends call progress.

  The agent keeps the text of an integer (`integer.rs`, `wire_schema.rs`) and compares texts; the
  Controller (`stall_window.py`) reads the number. Both decide whether a snapshot of an operation
  advanced past an earlier one (`operation_progress.rs`).

  Main declarations:
    * `deserializeIntegerNumber`
    * `Integer.cmp`
    * `cmp_decoded`
    * `both_ends_agree_on_progress`
-/

----
-- Integers
----

namespace VonkForge.Wire

open Decimal

/- A JSON integer token of any length. -/
structure Token where
  negative : Bool
  digits : List Char
  canonical : Decimal.canonical digits = true

variable (token left right : Token)

def Token.lexeme : List Char := if token.negative then '-' :: token.digits else token.digits

/- The number that the Controller reads. -/
def Token.number : Int := if token.negative then -(value token.digits : Int) else value token.digits

abbrev Integer := List Char

/- The number keeps the lexeme (`arbitrary_precision`), apart from the sign of a zero. -/
def deserializeIntegerNumber (number : List Char) : Except String Integer :=
  if number.any fun letter => letter == '.' || letter == 'e' || letter == 'E' then
    .error "expected an integer token"
  else if number = ['-', '0'] then .ok ['0'] else .ok number

def Integer.default : Integer := ['0']

/- `left.len().cmp(&right.len()).then_with(|| left.cmp(right))`. -/
def magnitude (left right : List Char) : Ordering :=
  (compare (Text.encode left).length (Text.encode right).length).then
    (compareOfLessAndEq (Text.encode left) (Text.encode right))

def Integer.cmp (left right : Integer) : Ordering :=
  let leftNegative := left.head? == some '-'
  let rightNegative := right.head? == some '-'
  if leftNegative != rightNegative then if leftNegative then .lt else .gt
  else
    let magnitude := magnitude (left.dropWhile (· == '-')) (right.dropWhile (· == '-'))
    if leftNegative then magnitude.swap else magnitude

----
-- Snapshots
----

/- The part of `OperationProgress` that the rule reads; the checkpoint is its key. -/
structure OperationProgress (ν : Type) where
  phase : String
  completedBytes : ν
  completedItems : Option ν
  activitySequence : Option ν
  checkpoint : Option String

section

variable {ν μ : Type} (read : ν → μ) (progress : OperationProgress ν)

def OperationProgress.map : OperationProgress μ :=
  ⟨progress.phase, read progress.completedBytes, progress.completedItems.map read,
    progress.activitySequence.map read, progress.checkpoint⟩

end

/- A snapshot that the agent decodes. -/
def OperationProgress.decode (progress : OperationProgress Token) :
    Except String (OperationProgress Integer) := do
  let completedBytes ← deserializeIntegerNumber progress.completedBytes.lexeme
  let completedItems ← progress.completedItems.mapM fun token =>
    deserializeIntegerNumber token.lexeme
  let activitySequence ← progress.activitySequence.mapM fun token =>
    deserializeIntegerNumber token.lexeme
  return ⟨progress.phase, completedBytes, completedItems, activitySequence, progress.checkpoint⟩

def otherCheckpoint (previous current : Option String) : Bool :=
  previous.any fun old => current.any fun new => old != new

def advancedFrom (current : OperationProgress Integer) : Option (OperationProgress Integer) → Bool
  | none => true
  | some previous =>
    if otherCheckpoint previous.checkpoint current.checkpoint then false
    else
      Integer.cmp current.completedBytes previous.completedBytes == .gt ||
      Integer.cmp (current.completedItems.getD Integer.default)
        (previous.completedItems.getD Integer.default) == .gt ||
      Integer.cmp (current.activitySequence.getD Integer.default)
        (previous.activitySequence.getD Integer.default) == .gt ||
      current.phase != previous.phase

/- `or 0`: of an integer that is not there, and of zero. -/
def orZero (number : Option Int) : Int := if number.any (· != 0) then number.getD 0 else 0

def progressAdvanced (previous : Option (OperationProgress Int)) (current : OperationProgress Int) :
    Bool :=
  if previous.any fun previous => otherCheckpoint previous.checkpoint current.checkpoint then false
  else match previous with
    | none => true
    | some previous =>
      decide (previous.completedBytes < current.completedBytes) ||
      decide (orZero previous.completedItems < orZero current.completedItems) ||
      decide (orZero previous.activitySequence < orZero current.activitySequence) ||
      current.phase != previous.phase

----
-- Order
----

/- The text that the agent keeps of a token. -/
def Token.integer : Integer := if token.lexeme = ['-', '0'] then ['0'] else token.lexeme

theorem Token.digit_of_mem {letter : Char} (hLetter : letter ∈ token.digits) :
    letter.isDigit :=
  List.all_eq_true.mp (canonical_digits token.canonical).1 letter hLetter

theorem deserialize_lexeme : deserializeIntegerNumber token.lexeme = .ok token.integer := by
  have hPlain : (token.lexeme.any fun letter =>
      letter == '.' || letter == 'e' || letter == 'E') = false := by
    rw [List.any_eq_false]
    intro letter hLetter hOther
    have hSign : letter = '-' ∨ letter ∈ token.digits := by
      unfold Token.lexeme at hLetter
      split at hLetter
      · exact List.mem_cons.mp hLetter
      · exact Or.inr hLetter
    simp only [Bool.or_eq_true, beq_iff_eq] at hOther
    rcases hSign with rfl | hDigit
    · simp at hOther
    · have hIs := token.digit_of_mem hDigit
      rcases hOther with (rfl | rfl) | rfl <;> cases hIs
  rw [deserializeIntegerNumber, hPlain, Token.integer]
  simp only [Bool.false_eq_true, if_false]
  split
  · rfl
  · rfl

variable {digits : List Char}

theorem length_encode_digits (hDigits : canonical digits) :
    (Text.encode digits).length = digits.length := by
  refine Text.length_encode_of_ascii fun letter hLetter => ?_
  have hBounds := digit_bounds (List.all_eq_true.mp (canonical_digits hDigits).1 letter hLetter)
  omega

/- Of two canonical numerals, the order of their texts is the order of their numbers. -/
theorem magnitude_eq {left right : List Char} (hLeft : canonical left)
    (hRight : canonical right) :
    magnitude left right = compare (value left) (value right) := by
  have hLess := value_lt_iff hLeft hRight
  have hMore := value_lt_iff hRight hLeft
  rw [magnitude, length_encode_digits hLeft, length_encode_digits hRight]
  rcases Nat.lt_trichotomy left.length right.length with hShort | hSame | hLong
  · rw [compare_lt_iff_lt.mpr hShort, compare_lt_iff_lt.mpr (hLess.mpr (Or.inl hShort))]
    rfl
  · rw [compare_eq_iff_eq.mpr hSame]
    simp only [hSame, lt_self_iff_false, true_and, false_or] at hLess hMore
    rcases Nat.lt_trichotomy (value left) (value right) with hValue | hValue | hValue
    · rw [compare_lt_iff_lt.mpr hValue]
      simp [compareOfLessAndEq, hLess.mp hValue]
    · obtain rfl := eq_of_value_eq hLeft hRight hValue
      simp [compareOfLessAndEq, List.lt_irrefl]
    · have hAfter := hMore.mp hValue
      have hOther : Text.encode left ≠ Text.encode right := by
        intro hEqual
        rw [hEqual] at hAfter
        exact List.lt_irrefl _ hAfter
      rw [compare_gt_iff_gt.mpr hValue]
      simp [compareOfLessAndEq, List.lt_asymm hAfter, hOther]
  · rw [compare_gt_iff_gt.mpr hLong, compare_gt_iff_gt.mpr (hMore.mpr (Or.inl hLong))]
    rfl

/- Canonical digits have no sign. -/
theorem unsigned (hDigits : canonical digits) :
    (digits.head? == some '-') = false ∧ digits.dropWhile (· == '-') = digits := by
  cases digits with
  | nil => cases hDigits
  | cons letter =>
    have hDigit := List.all_eq_true.mp (canonical_digits hDigits).1 letter List.mem_cons_self
    have hSign : letter ≠ '-' := by
      rintro rfl
      cases hDigit
    simp [hSign]

/- What the agent keeps: the digits, or the digits of a positive number after a minus sign. -/
theorem Token.integer_spec : ∃ digits, Decimal.canonical digits ∧
    ((token.integer = digits ∧ token.number = value digits) ∨
      (token.integer = '-' :: digits ∧ token.number = -(value digits : Int) ∧ 0 < value digits)) :=
    by
  rcases token with ⟨negative, digits, hDigits⟩
  cases negative with
  | false =>
    refine ⟨digits, hDigits, Or.inl ⟨if_neg fun hZero => ?_, rfl⟩⟩
    obtain rfl : digits = ['-', '0'] := hZero
    cases hDigits
  | true =>
    by_cases hZero : digits = ['0']
    · subst hZero
      exact ⟨['0'], rfl, Or.inl ⟨rfl, rfl⟩⟩
    · refine ⟨digits, hDigits, Or.inr ⟨if_neg fun hLexeme => hZero ?_, rfl, ?_⟩⟩
      · exact (List.cons.inj hLexeme).2
      · exact Nat.pos_of_ne_zero fun hValue => hZero (eq_of_value_eq hDigits rfl hValue)

theorem compare_cast (a b : Nat) : compare (a : Int) b = compare a b := by
  rcases Nat.lt_trichotomy a b with hLess | rfl | hMore
  · rw [compare_lt_iff_lt.mpr hLess, compare_lt_iff_lt.mpr (by omega)]
  · simp
  · rw [compare_gt_iff_gt.mpr hMore, compare_gt_iff_gt.mpr (by omega)]

theorem compare_neg (a b : Int) : compare (-a) (-b) = (compare a b).swap := by
  rcases Int.lt_trichotomy a b with hLess | rfl | hMore
  · rw [compare_lt_iff_lt.mpr hLess, compare_gt_iff_gt.mpr (by omega)]
    rfl
  · simp
  · rw [compare_gt_iff_gt.mpr hMore, compare_lt_iff_lt.mpr (by omega)]
    rfl

/- Decoded integers compare as the numbers they were. -/
theorem cmp_decoded :
    Integer.cmp left.integer right.integer =
      compare left.number right.number := by
  rcases left.integer_spec with ⟨_, hL, hLeft⟩
  rcases right.integer_spec with ⟨_, hR, hRight⟩
  have hPlainL := unsigned hL
  have hPlainR := unsigned hR
  have hMagnitude := magnitude_eq hL hR
  unfold Integer.cmp
  rcases hLeft with ⟨hLeft, hA⟩ | ⟨hLeft, hA, _⟩ <;>
  rcases hRight with ⟨hRight, hB⟩ | ⟨hRight, hB, _⟩ <;>
  simp only [hLeft, hRight, hA, hB, hPlainL, hPlainR, hMagnitude, List.head?_cons,
    List.dropWhile_cons, beq_self_eq_true, bne_self_eq_false, Bool.false_eq_true, if_false, if_true]
  · exact (compare_cast _ _).symm
  · exact (Int.compare_eq_gt.mpr (by omega)).symm
  · exact (Int.compare_eq_lt.mpr (by omega)).symm
  · rw [← compare_cast]
    exact (compare_neg _ _).symm

theorem decode_eq (progress : OperationProgress Token) :
    progress.decode = .ok (progress.map Token.integer) := by
  rcases progress with ⟨_, _, completedItems, activitySequence, _⟩
  simp only [OperationProgress.decode, deserialize_lexeme]
  cases completedItems <;> cases activitySequence <;> rfl

theorem gt_cmp (new old : Token) :
    (Integer.cmp new.integer old.integer == .gt) = decide (old.number < new.number) := by
  rw [cmp_decoded, Bool.eq_iff_iff, beq_iff_eq, Int.compare_eq_gt, decide_eq_true_iff]

/- An integer that is not there counts as zero on both ends. -/
theorem gt_cmp_optional (new old : Option Token) :
    (Integer.cmp ((new.map Token.integer).getD Integer.default)
        ((old.map Token.integer).getD Integer.default) == .gt) =
      decide (orZero (old.map Token.number) < orZero (new.map Token.number)) := by
  let zero : Token := ⟨false, ['0'], rfl⟩
  have hInteger (token : Option Token) :
      (token.map Token.integer).getD Integer.default = (token.getD zero).integer := by
    cases token with
    | none | some => rfl
  have hNumber (token : Option Token) :
      orZero (token.map Token.number) = (token.getD zero).number := by
    cases token with
    | none => rfl
    | some => simp +contextual [orZero]
  rw [hInteger, hInteger, hNumber, hNumber, gt_cmp]

theorem advancedFrom_map (previous current : OperationProgress Token) :
    advancedFrom (current.map Token.integer) (some (previous.map Token.integer)) =
    progressAdvanced (some (previous.map Token.number)) (current.map Token.number) := by
  simp only [advancedFrom, progressAdvanced, OperationProgress.map, Option.any_some,
    gt_cmp_optional, gt_cmp]
  rfl

/-
  The agent compares the lexemes as the Controller compares the numbers, so both say alike whether
  an operation has advanced.
-/
theorem both_ends_agree_on_progress :
    (∀ left right : Token,
       ∃ l r,
         deserializeIntegerNumber left.lexeme = .ok l ∧
         deserializeIntegerNumber right.lexeme = .ok r ∧
         Integer.cmp l r = compare left.number right.number) ∧
    ∀ (previous : Option (OperationProgress Token))
      (current : OperationProgress Token),
      ∃ old new,
        previous.mapM OperationProgress.decode = .ok old ∧
        current.decode = .ok new ∧
        advancedFrom new old =
          progressAdvanced
            (previous.map (OperationProgress.map Token.number))
            (current.map Token.number) := by
  constructor
  · intro left right
    exact ⟨_, _, deserialize_lexeme left, deserialize_lexeme right, cmp_decoded left right⟩
  · intro previous current
    refine ⟨previous.map (OperationProgress.map Token.integer), current.map Token.integer, ?_,
      decode_eq current, ?_⟩
    · cases previous with
      | none => rfl
      | some =>
        rw [Option.mapM_some, decode_eq]
        rfl
    · cases previous with
      | none => rfl
      | some previous => exact advancedFrom_map previous current

end VonkForge.Wire
