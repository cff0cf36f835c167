import VonkForge.Evidence.Clamp

/-
  The agent and the Controller cut alike.

  Both move a cut to where a character begins, by tests that come to the same on the bytes of a
  text, and both look for the same marker line by line. So a cut never falls inside a character, and
  what is kept are parts of the text.

  Main declarations:
    * `inclusiveLines`
    * `findMarker_spec`
    * `searchMarker_spec`
    * `cuts_agree`
-/

----
-- Positions
----

namespace VonkForge.Evidence

open Text

theorem isCharBoundary_iff (text : List Char) (index : Nat) :
    isCharBoundary (encode text) index ↔ Boundary text index := by
  fun_cases isCharBoundary with
  | case1 hZero => simpa [hZero] using boundary_zero text
  | case2 _ hNone =>
    rw [beq_iff_eq]
    constructor
    · rintro rfl
      exact boundary_length text
    · rintro ⟨_, _, rfl, rfl⟩
      have hOutside := List.getElem?_eq_none_iff.mp hNone
      rw [encode_append, List.length_append] at hOutside ⊢
      omega
  | case3 _ _ hByte =>
    refine ⟨fun hBoundary => boundary_of_getElem? hByte (by simpa using hBoundary), ?_⟩
    intro hBoundary
    rw [hBoundary.getElem? hByte]
    rfl

variable {text : List Char} {index : Nat}

theorem sliceFrom_of_boundary (hBoundary : Boundary text index) :
    sliceFrom (encode text) index = some ((encode text).drop index) := by
  rw [sliceFrom, (isCharBoundary_iff text index).mpr hBoundary, if_pos rfl]

theorem sliceTo_of_boundary (hBoundary : Boundary text index) :
    sliceTo (encode text) index = some ((encode text).take index) := by
  rw [sliceTo, (isCharBoundary_iff text index).mpr hBoundary, if_pos rfl]

/- The two tests of a byte are one. -/
theorem continues_eq (byte : UInt8) : continues byte = isContinuation byte := by
  have hAll :
      ∀ number : Fin 256, continues (UInt8.ofNat number) = isContinuation (UInt8.ofNat number) := by
    decide +kernel
  have hByte := hAll ⟨byte.toNat, byte.toNat_lt⟩
  rwa [UInt8.ofNat_toNat] at hByte

section

variable (text : List Char)

/- The test of the Controller, past the first byte. -/
theorem any_continues (hIndex : index ≠ 0) :
    (((encode text)[index]?).any continues ↔
      index < (encode text).length ∧ isCharBoundary (encode text) index = false) := by
  rw [isCharBoundary, if_neg hIndex]
  cases hByte : (encode text)[index]? with
  | none =>
    have hOutside := List.getElem?_eq_none_iff.mp hByte
    simp only [Option.any_none, Bool.false_eq_true, false_iff, not_and]
    intro _
    omega
  | some =>
    have hInside := (List.getElem?_eq_some_iff.mp hByte).1
    simp [hInside, continues_eq]

/- The loop forward ends where a character begins. -/
theorem nextBoundary_spec (fuel cut : Nat)
    (hFuel : (encode text).length ≤ fuel + cut) (hCut : cut ≤ (encode text).length) :
    cut ≤ nextBoundary (encode text) fuel cut ∧
    Boundary text (nextBoundary (encode text) fuel cut) := by
  induction fuel generalizing cut with
  | zero =>
    have hEnd : cut = (encode text).length := by omega
    rw [nextBoundary, hEnd]
    exact ⟨le_rfl, boundary_length text⟩
  | succ fuel ih =>
    rw [nextBoundary]
    split
    · rename_i hInside
      rcases ih (cut + 1) (by omega) (by omega) with ⟨_, hBoundary⟩
      exact ⟨by omega, hBoundary⟩
    · rename_i hStop
      refine ⟨le_rfl, ?_⟩
      rw [not_and, Bool.not_eq_false] at hStop
      by_cases hInside : cut < (encode text).length
      · exact (isCharBoundary_iff text cut).mp (hStop hInside)
      · have hEnd : cut = (encode text).length := by
          omega
        rw [hEnd]
        exact boundary_length text

/- With steps to spare, both loops forward agree. -/
theorem skipContinuations_eq (fuel spare cut : Nat)
    (hFuel : (encode text).length ≤ fuel + cut) (hCut : cut ≠ 0) :
    skipContinuations (encode text) (fuel + spare) cut = nextBoundary (encode text) fuel cut := by
  induction fuel generalizing cut with
  | zero =>
    rw [nextBoundary]
    cases spare with
    | zero => rfl
    | succ =>
      rw [Nat.zero_add, skipContinuations, if_neg]
      rw [any_continues text hCut]
      omega
  | succ fuel ih =>
    rw [Nat.succ_add, skipContinuations, nextBoundary]
    split
    · rename_i hMore
      rw [any_continues text hCut] at hMore
      rw [if_pos hMore]
      exact ih (cut + 1) (by omega) (by omega)
    · rename_i hStop
      rw [any_continues text hCut] at hStop
      rw [if_neg hStop]

/- The loops backward agree as well. -/
theorem stepBack_eq (cut : Nat) (hCut : cut < (encode text).length) :
    stepBack (encode text) cut = floorCharBoundary (encode text) cut ∧
    stepBack (encode text) cut ≤ cut ∧ Boundary text (stepBack (encode text) cut) := by
  induction cut with
  | zero => exact ⟨rfl, le_rfl, boundary_zero text⟩
  | succ cut ih =>
    rw [stepBack, floorCharBoundary]
    split
    · rename_i hMore
      rw [any_continues text (by omega)] at hMore
      rw [hMore.2, if_neg Bool.false_ne_true]
      rcases ih (by omega) with ⟨hSame, _, hBoundary⟩
      exact ⟨hSame, by omega, hBoundary⟩
    · rename_i hStop
      rw [any_continues text (by omega), not_and, Bool.not_eq_false] at hStop
      have hHere := hStop hCut
      rw [if_pos hHere]
      exact ⟨rfl, le_rfl, (isCharBoundary_iff text (cut + 1)).mp hHere⟩

end

----
-- The End and the Front of a Text
----

/- The position after a line end is one of a character. -/
theorem boundary_after_newline {cut index : Nat}
    (hIndex : ((encode text).drop cut).idxOf? 10 = some index) :
    Boundary text (cut + index + 1) := by
  have hByte : (encode text)[cut + index]? = some (10 : UInt8) := by
    rcases List.idxOf?_eq_some_iff.mp hIndex with ⟨hInside, hByte, _⟩
    rw [← List.getElem?_drop, List.getElem?_eq_getElem hInside, hByte]
  exact boundary_succ_of_ascii hByte (by decide)

/- What is skipped, as both of them count it. -/
theorem skipLine_spec (text : List Char) {cut : Nat} (hCut : Boundary text cut) :
    cut ≤ skipLine (encode text) ((encode text).drop cut) cut ∧
    Boundary text (skipLine (encode text) ((encode text).drop cut) cut) := by
  unfold skipLine
  split
  · rename_i index hIndex
    split
    · exact ⟨by omega, boundary_after_newline hIndex⟩
    · exact ⟨le_rfl, hCut⟩
  · exact ⟨le_rfl, hCut⟩

theorem nextLine_eq (encoded : List UInt8) (cut : Nat) :
    nextLine encoded cut = skipLine encoded (encoded.drop cut) cut := by
  unfold nextLine skipLine
  cases (encoded.drop cut).idxOf? 10 with
  | none => rfl
  | some index =>
    have hSides : cut + index < encoded.length - 1 ↔ cut + index + 1 < encoded.length := by omega
    simp only [hSides]

/- Both keep the same end of a text. -/
theorem clampTail_spec (text : List Char) (limit : Nat) : ∃ before kept, text = before ++ kept ∧
    clampTail (encode text) limit = some (encode kept, (encode before).length) ∧
    keepEnd text limit = some (kept, (encode before).length) ∧ (encode kept).length ≤ limit := by
  by_cases hFits : (encode text).length ≤ limit
  · refine ⟨[], text, rfl, ?_, ?_, hFits⟩
    · rw [clampTail, if_pos hFits]
      rfl
    · rw [keepEnd]
      simp only
      rw [if_pos (by exact_mod_cast hFits)]
      rfl
  · generalize hStart : (encode text).length - limit = start
    have hNext := nextBoundary_spec text limit start (by omega) (by omega)
    generalize hCut : nextBoundary (encode text) limit start = cut at hNext
    have hSkip := skipLine_spec text hNext.2
    generalize hLine : skipLine (encode text) ((encode text).drop cut) cut = last at hSkip
    rcases hSkip.2 with ⟨before, kept, hText, hLast⟩
    have hRest : (encode text).drop last = encode kept := by
      rw [hText, encode_append, ← hLast, List.drop_left]
    have hLength : (encode text).length = (encode before).length + (encode kept).length := by
      rw [hText, encode_append, List.length_append]
    refine ⟨before, kept, hText, ?_, ?_, by omega⟩
    · rw [clampTail, if_neg hFits]
      simp only [hStart, hCut, sliceFrom_of_boundary hNext.2,
        Option.bind_eq_bind, Option.bind_some, hLine, sliceFrom_of_boundary hSkip.2, hRest, hLast]
      rfl
    · have hSpare : (encode text).length = limit + start := by
        omega
      have hSame : skipContinuations (encode text) (encode text).length start = cut := by
        rw [← hCut]
        rw [hSpare]
        exact skipContinuations_eq text limit start start (by omega) (by omega)
      rw [keepEnd]
      simp only
      rw [if_neg (by exact_mod_cast hFits)]
      have hNat : (((encode text).length : Int) - limit).toNat = start := by omega
      rw [hNat, hSame, nextLine_eq, hLine, hRest, decode_encode, hLast]
      rfl

theorem getElem?_of_lastIndexOf {byte : UInt8} {text : List UInt8}
    (hIndex : lastIndexOf byte text = some index) : text[index]? = some byte := by
  rcases Option.map_eq_some_iff.mp hIndex with ⟨_, hPlace, rfl⟩
  rcases List.idxOf?_eq_some_iff.mp hPlace with ⟨hInside, hByte, _⟩
  rw [List.length_reverse] at hInside
  rw [List.getElem_reverse] at hByte
  rw [List.getElem?_eq_getElem (by omega), hByte]

/- Both keep the same front of a text. -/
theorem keepFront_spec (text : List Char) (limit : Nat) : ∃ kept after, text = kept ++ after ∧
    keepFront (encode text) limit = some (encode kept) ∧
    fitCauses (encode text) limit = encode kept ∧ (encode kept).length ≤ limit := by
  by_cases hFits : (encode text).length ≤ limit
  · refine ⟨text, [], (List.append_nil text).symm, ?_, ?_, hFits⟩
    · rw [keepFront, if_pos hFits]
    · rw [fitCauses, if_pos (by exact_mod_cast hFits)]
  · rcases stepBack_eq text limit (by omega) with ⟨hSame, hLe, hCut⟩
    generalize hBack : stepBack (encode text) limit = cut at hSame hLe hCut
    have hStop : sliceStop (encode text).length
            (if (0 : Int) < limit then (stepBack (encode text) (limit : Int).toNat : Int)
            else limit) = cut := by
      rw [Int.toNat_natCast, hBack, sliceStop]
      split
      · rw [if_neg (by omega), Int.toNat_natCast]
      · rw [if_neg (by omega), Int.toNat_natCast]
        omega
    rcases hCut.cut with ⟨front, rest, hText, hFront, _⟩
    have hLength : (encode front).length ≤ cut := by
      rw [← hFront]
      exact List.length_take_le _ _
    unfold keepFront fitCauses
    rw [if_neg hFits, ← hSame, sliceTo_of_boundary hCut, hFront, if_neg (by exact_mod_cast hFits)]
    simp only
    rw [hStop, hFront]
    cases hLast : lastIndexOf 10 (encode front) with
    | none =>
      refine ⟨front, rest, hText, ?_, rfl, by omega⟩
      simp only [Option.bind_eq_bind, Option.bind_some, hLast]
      rfl
    | some index =>
      have hByte := getElem?_of_lastIndexOf hLast
      have hInside := (List.getElem?_eq_some_iff.mp hByte).1
      have hThere : (encode text)[index]? = some (10 : UInt8) := by
        rw [hText, encode_append, List.getElem?_append_left hInside, hByte]
      have hAfter : Boundary text (index + 1) := boundary_succ_of_ascii hThere (by decide)
      rcases hAfter.cut with ⟨kept, after, hKept, hTake, _⟩
      refine ⟨kept, after, hKept, ?_, hTake, ?_⟩
      · simp only [Option.bind_eq_bind, Option.bind_some, hLast]
        rw [← hTake]
        exact sliceTo_of_boundary hAfter
      · rw [← hTake, List.length_take]
        omega

----
-- Markers
----

variable (line : List Char)

/- A marker, as it is written. -/
def Written : Prop :=
  ∃ digits, digits ≠ [] ∧ digits.all Char.isDigit = true ∧ line = '[' :: digits ++ markerEnd

theorem matchesMarker_iff : matchesMarker line ↔ Written line := by
  constructor
  · intro hMatches
    unfold matchesMarker at hMatches
    split at hMatches
    · rename_i rest
      rw [decide_eq_true_eq] at hMatches
      refine ⟨rest.takeWhile Char.isDigit, hMatches.1, List.all_takeWhile, ?_⟩
      rw [← hMatches.2, List.cons_append, List.takeWhile_append_dropWhile]
    · cases hMatches
  · rintro ⟨digits, hSome, hDigits, rfl⟩
    have hAll : ∀ digit ∈ digits, digit.isDigit := List.all_eq_true.mp hDigits
    rw [List.cons_append, matchesMarker, List.takeWhile_append_of_pos hAll,
      List.dropWhile_append_of_pos hAll, decide_eq_true_eq]
    constructor
    · simp [hSome]
    · rfl

theorem isOmissionMarker_iff (line : List UInt8) : isOmissionMarker line ↔
    ∃ count, count ≠ [] ∧ count.all digitByte ∧
    line = encode ['['] ++ count ++ encode markerEnd := by
  unfold isOmissionMarker
  rw [Option.any_eq_true]
  constructor
  · rintro ⟨count, hParts, hCount⟩
    rw [decide_eq_true_eq] at hCount
    rcases Option.bind_eq_some_iff.mp hParts with ⟨_, hRest, hSuffix⟩
    rcases List.dropPrefix?_eq_some_iff.mp hRest with ⟨_, rfl, hStart⟩
    rcases List.dropSuffix?_eq_some_iff.mp hSuffix with ⟨_, rfl, hFinish⟩
    refine ⟨count, hCount.1, hCount.2, ?_⟩
    rw [beq_iff_eq.mp hStart, beq_iff_eq.mp hFinish, List.append_assoc]
  · rintro ⟨count, hSome, hDigits, rfl⟩
    refine ⟨count, ?_, decide_eq_true ⟨hSome, hDigits⟩⟩
    apply Option.bind_eq_some_iff.mpr
    refine ⟨count ++ encode markerEnd, ?_, ?_⟩
    · apply List.dropPrefix?_eq_some_iff.mpr
      exact ⟨encode ['['], List.append_assoc _ _ _, beq_self_eq_true _⟩
    · apply List.dropSuffix?_eq_some_iff.mpr
      exact ⟨encode markerEnd, rfl, beq_self_eq_true _⟩

/- A digit and its byte. -/
theorem digit_spec : ∀ number :
    Fin 256, (Char.ofNat number).isDigit = digitByte (UInt8.ofNat number) ∧
    (digitByte (UInt8.ofNat number) → encode [Char.ofNat number] = [UInt8.ofNat number]) :=
    by decide +kernel

theorem encode_digit {digit : Char} (hDigit : digit.isDigit) :
    ∃ byte, encode [digit] = [byte] ∧ digitByte byte := by
  have hSmall : digit.toNat < 256 := by
    simp only [Char.isDigit, ge_iff_le, Bool.and_eq_true,
      decide_eq_true_eq, UInt32.le_iff_toNat_le] at hDigit
    have hHigh : digit.toNat ≤ 57 := hDigit.2
    omega
  have hSpec := digit_spec ⟨digit.toNat, hSmall⟩
  simp only [Char.ofNat_toNat] at hSpec
  rw [hDigit] at hSpec
  exact ⟨_, hSpec.2 hSpec.1.symm, hSpec.1.symm⟩

/- Digits, in their bytes. -/
theorem encode_digits (digits : List Char) (hDigits : digits.all Char.isDigit) :
    (encode digits).all digitByte := by
  induction digits with
  | nil => rfl
  | cons _ _ ih =>
    rw [List.all_cons, Bool.and_eq_true] at hDigits
    rcases encode_digit hDigits.1 with ⟨_, hByte, hIsDigit⟩
    rw [encode_cons, hByte, List.singleton_append, List.all_cons, hIsDigit, ih hDigits.2]
    rfl

theorem exists_digits (count : List UInt8) (hCount : count.all digitByte) :
    ∃ digits : List Char, digits.all Char.isDigit ∧ encode digits = count := by
  induction count with
  | nil => exact ⟨[], rfl, rfl⟩
  | cons byte _ ih =>
    rw [List.all_cons, Bool.and_eq_true] at hCount
    rcases ih hCount.2 with ⟨digits, hDigits, hRest⟩
    have hSpec := digit_spec ⟨byte.toNat, byte.toNat_lt⟩
    simp only [UInt8.ofNat_toNat] at hSpec
    refine ⟨Char.ofNat byte.toNat :: digits, ?_, ?_⟩
    · rw [List.all_cons, hSpec.1, hCount.1, hDigits]
      rfl
    · rw [encode_cons, hSpec.2 hCount.1, hRest]
      rfl

/- The tests of the agent and the Controller agree. -/
theorem isOmissionMarker_encode : isOmissionMarker (encode line) = matchesMarker line := by
  rw [Bool.eq_iff_iff, isOmissionMarker_iff, matchesMarker_iff]
  constructor
  · rintro ⟨count, hSome, hCount, hLine⟩
    rcases exists_digits count hCount with ⟨digits, hDigits, rfl⟩
    refine ⟨digits, ?_, hDigits, ?_⟩
    · rintro rfl
      exact hSome rfl
    · apply encode_injective
      rw [hLine, encode_append, encode_cons '[' digits]
  · rintro ⟨digits, hSome, hDigits, rfl⟩
    refine ⟨encode digits, ?_, encode_digits digits hDigits, ?_⟩
    · intro hNil
      apply hSome
      exact encode_injective hNil
    · rw [encode_append, encode_cons '[' digits]

----
-- The First Marker
----

def inclusiveLines (text : List Char) : List (List Char) := inclusive '\n' text

/- A marker, with or without the end of its line. -/
def isMarkerLine : Bool := matchesMarker (line.reverse.dropWhile (· = '\n')).reverse

/-
  A text before, at and after its first marker line. The line has its newline, as what is kept of
  the text has.
-/
def FirstMarker (text before marker after : List Char) : Prop :=
  ∃ earlier later, inclusiveLines text = earlier ++ marker :: later ∧
    (∀ line ∈ earlier, isMarkerLine line = false) ∧ isMarkerLine marker = true ∧
    before = earlier.flatten ∧ after = later.flatten

theorem FirstMarker.text_eq {text before marker after : List Char}
    (hFirst : FirstMarker text before marker after) : text = before ++ marker ++ after := by
  rcases hFirst with ⟨_, _, hLines, _, _, rfl, rfl⟩
  have hText := flatten_inclusive '\n' text
  rw [inclusiveLines] at hLines
  rw [hLines] at hText
  rw [← hText]
  simp

/- A list that ends with another value is left alone. -/
theorem dropWhile_end {α : Type} [DecidableEq α] {value : α} (front : List α)
    {last : List α} (hSome : last ≠ []) (hLast : value ∉ last) :
    ((front ++ last).reverse.dropWhile (· = value)).reverse = front ++ last := by
  have hReversed : last.reverse ≠ [] := by simpa using hSome
  rw [List.reverse_append]
  cases hFirst : last.reverse with
  | nil => exact absurd hFirst hReversed
  | cons item =>
    have hItem : item ∈ last := by
      rw [← List.mem_reverse, hFirst]
      exact List.mem_cons_self
    have hOther : ¬ item = value := by
      rintro rfl
      exact hLast hItem
    rw [List.cons_append, List.dropWhile_cons_of_neg (by simpa using hOther), ← List.cons_append,
        ← hFirst, ← List.reverse_append, List.reverse_reverse]

theorem trimLineEnds_encode :
    trimLineEnds (encode line) = encode (line.reverse.dropWhile (· = '\n')).reverse := by
  induction line using List.reverseRecOn with
  | nil => rfl
  | append_singleton rest letter ih =>
    by_cases hEnd : letter = '\n'
    · have hByte : encode ['\n'] = [10] := by
        decide +kernel
      rw [hEnd, encode_append, hByte, trimLineEnds]
      simpa [trimLineEnds] using ih
    · rw [encode_append, trimLineEnds,
        dropWhile_end _ (encode_singleton_ne_nil letter) (newline_notMem_encode hEnd),
        dropWhile_end rest (List.cons_ne_nil letter [])
          (by
            intro hMem
            exact hEnd (List.mem_singleton.mp hMem).symm),
        encode_append]

/- The search over lines, from any position. -/
theorem findMarker_lines (lines : List (List Char)) (start : Nat) :
    ((∀ line ∈ lines, isMarkerLine line = false) ∧ findMarker start (lines.map encode) = none) ∨
      ∃ earlier marker later,
        lines = earlier ++ marker :: later ∧ (∀ line ∈ earlier, isMarkerLine line = false) ∧
          isMarkerLine marker ∧ findMarker start (lines.map encode) =
            some (start + (encode earlier.flatten).length,
              start + (encode earlier.flatten).length + (encode marker).length) := by
  induction lines generalizing start with
  | nil =>
    left
    refine ⟨?_, rfl⟩
    intro _ hLine
    cases hLine
  | cons line rest ih =>
    have hTest : isOmissionMarker (trimLineEnds (encode line)) = isMarkerLine line := by
      rw [trimLineEnds_encode, isOmissionMarker_encode]
      rfl
    rw [List.map_cons, findMarker, hTest]
    cases hMarker : isMarkerLine line with
    | true =>
      right
      refine ⟨[], line, rest, rfl, ?_, hMarker, rfl⟩
      intro _ hOther
      cases hOther
    | false =>
      rcases ih (start + (encode line).length) with
        ⟨hNone, hSearch⟩ |
        ⟨earlier, marker, later, hLines, hEarlier, hFirst, hSearch⟩
      · left
        refine ⟨?_, hSearch⟩
        intro other hOther
        rcases List.mem_cons.mp hOther with rfl | hRest
        · exact hMarker
        · exact hNone other hRest
      · right
        refine ⟨line :: earlier, marker, later, ?_, ?_, hFirst, ?_⟩
        · rw [hLines]
          rfl
        · intro other hOther
          rcases List.mem_cons.mp hOther with rfl | hRest
          · exact hMarker
          · exact hEarlier other hRest
        · rw [if_neg Bool.false_ne_true, hSearch, List.flatten_cons, encode_append,
            List.length_append, Nat.add_assoc]

/- The agent finds the first marker line, or there is none. -/
theorem findMarker_spec (text : List Char) :
    ((∀ line ∈ inclusiveLines text, isMarkerLine line = false) ∧
     findMarker 0 (splitInclusive (encode text)) = none) ∨
    ∃ before marker after,
      FirstMarker text before marker after ∧
      findMarker 0 (splitInclusive (encode text)) =
        some
          ((encode before).length, (encode before).length +
             (encode marker).length) := by
  rw [splitInclusive, inclusive_encode]
  rcases findMarker_lines (inclusiveLines text) 0 with
    ⟨hNone, hSearch⟩ |
    ⟨earlier, marker, later, hLines, hEarlier, hFirst, hSearch⟩
  · exact Or.inl ⟨hNone, hSearch⟩
  · right
    refine ⟨earlier.flatten, marker, later.flatten,
      ⟨earlier, later, hLines, hEarlier, hFirst, rfl, rfl⟩, ?_⟩
    rw [Nat.zero_add] at hSearch
    exact hSearch

variable {piece : List Char}

/- The line that the agent tests, without its end. -/
theorem trimLineEnds_piece (hPiece : '\n' ∉ piece) :
    isOmissionMarker (trimLineEnds (encode piece)) = matchesMarker piece ∧
    isOmissionMarker (trimLineEnds (encode piece ++ [10])) = matchesMarker piece := by
  have hKept : (piece.reverse.dropWhile (· = '\n')).reverse = piece := by
    cases piece with
    | nil => rfl
    | cons => exact dropWhile_end [] (List.cons_ne_nil _ _) hPiece
  have hTrim : trimLineEnds (encode piece ++ [10]) = trimLineEnds (encode piece) := by
    simp [trimLineEnds]
  rw [hTrim, trimLineEnds_encode, hKept]
  exact ⟨isOmissionMarker_encode piece, isOmissionMarker_encode piece⟩

theorem newline_notMem_piece (hPiece : '\n' ∉ piece) :
    (10 : UInt8) ∉ encode piece := by
  intro hByte
  exact hPiece (mem_encode_ascii (by decide) hByte)

/- A text of one line, without its end. -/
theorem splitInclusive_piece (hPiece : '\n' ∉ piece) (hSome : piece ≠ []) :
    splitInclusive (encode piece) = [encode piece] := by
  have hEncoded : encode piece ≠ [] := by
    intro hNil
    exact hSome (encode_injective hNil)
  have hSplit := inclusive_append (newline_notMem_piece hPiece) hEncoded []
  rw [List.append_nil] at hSplit
  exact hSplit

/-
  Both searches find the same line. The Controller counts a line end after the last line as well.
-/
theorem searchMarker_spec
    (text : List Char)
    (start : Nat) :
    (findMarker start (splitInclusive (encode text)) = none ∧
     searchMarker start ((encode text).splitOn 10) = some none) ∨
    ∃ first last stop,
      findMarker start (splitInclusive (encode text)) =
        some (first, last) ∧
      searchMarker start ((encode text).splitOn 10) =
        some (some (first, stop)) ∧
      (stop = last ∨
       (stop = last + 1 ∧ last = start + (encode text).length)) := by
  induction hLength : text.length using Nat.strong_induction_on generalizing text start with
  | _ length ih =>
    by_cases hMem : '\n' ∈ text
    · rcases List.eq_append_cons_of_mem hMem with ⟨piece, rest, rfl, hPiece⟩
      have hBytes : encode (piece ++ '\n' :: rest) = encode piece ++ 10 :: encode rest := by
        rw [encode_append, encode_cons]
        rfl
      have hLines : splitInclusive (encode piece ++ 10 :: encode rest) = (encode piece ++ [10]) ::
          splitInclusive (encode rest) := inclusive_append_cons (newline_notMem_piece hPiece) _
      have hPieces : (encode piece ++ 10 :: encode rest).splitOn 10 = encode piece ::
          (encode rest).splitOn 10 := by
        have hOne := List.splitOn_eq_singleton (newline_notMem_piece hPiece)
        have hSplit : (encode piece ++ 10 :: encode rest).splitOn 10 = (encode piece).splitOn 10 ++
            (encode rest).splitOn 10 := by
          simp only [List.splitOn_eq_splitOnP]
          exact List.splitOnP_append_cons _ _ (by rfl)
        rw [hSplit, hOne]
        rfl
      rw [hBytes, hLines, hPieces, findMarker,
        searchMarker, (trimLineEnds_piece hPiece).2, decode_encode]
      simp only [Option.bind_eq_bind, Option.bind_some,
        List.length_append, List.length_cons, List.length_nil, Nat.zero_add]
      cases matchesMarker piece with
      | true =>
        right
        exact ⟨start, start + ((encode piece).length + 1),
          start + (encode piece).length + 1, rfl, rfl, Or.inl (by omega)⟩
      | false =>
        simp only [Bool.false_eq_true, if_false, ← Nat.add_assoc]
        have hShorter : rest.length < length := by
          rw [← hLength, List.length_append, List.length_cons]
          omega
        rcases ih rest.length hShorter rest
          (start + (encode piece).length + 1) rfl with
          hNone | ⟨first, last, stop, hFind, hSearch, hStop⟩
        · exact Or.inl hNone
        · right
          refine ⟨first, last, stop, hFind, hSearch, ?_⟩
          rcases hStop with hSame | ⟨hNext, _⟩
          · exact Or.inl hSame
          · exact Or.inr ⟨hNext, by omega⟩
    · rw [List.splitOn_eq_singleton (newline_notMem_piece hMem), searchMarker, decode_encode]
      simp only [Option.bind_eq_bind, Option.bind_some]
      cases text with
      | nil =>
        left
        exact ⟨rfl, rfl⟩
      | cons letter rest =>
        rw [splitInclusive_piece hMem (List.cons_ne_nil _ _), findMarker,
            (trimLineEnds_piece hMem).1]
        cases matchesMarker (letter :: rest) with
        | true =>
          right
          exact ⟨start, start + (encode (letter :: rest)).length,
            start + (encode (letter :: rest)).length + 1, rfl, rfl, Or.inr ⟨rfl, rfl⟩⟩
        | false =>
          left
          exact ⟨rfl, rfl⟩

----
-- Cutting a Retained Tail
----

variable {text before marker after : List Char}

/- The pieces that the agent cuts a text into. -/
theorem slices_of_marker (hText : text = before ++ marker ++ after) :
    sliceTo (encode text) (encode before).length = some (encode before) ∧ sliceFrom (encode text)
    ((encode before).length + (encode marker).length) = some (encode after) ∧
    sliceFrom ((encode text).take ((encode before).length + (encode marker).length))
    (encode before).length = some (encode marker) := by
  have hStart : Boundary text (encode before).length :=
    ⟨before, marker ++ after, by rw [hText, List.append_assoc], rfl⟩
  have hEnd : Boundary text ((encode before).length + (encode marker).length) :=
    ⟨before ++ marker, after, hText, by rw [encode_append, List.length_append]⟩
  have hFront : (encode text).take ((encode before).length + (encode marker).length) =
      encode (before ++ marker) := by
    rw [hText, encode_append (before ++ marker) after,
      ← List.length_append, ← encode_append, List.take_left]
  have hInner : Boundary (before ++ marker) (encode before).length := ⟨before, marker, rfl, rfl⟩
  refine ⟨?_, ?_, ?_⟩
  · rw [sliceTo_of_boundary hStart, hText, List.append_assoc, encode_append, List.take_left]
  · rw [sliceFrom_of_boundary hEnd, hText, encode_append,
      ← List.length_append, ← encode_append, List.drop_left]
  · rw [hFront, sliceFrom_of_boundary hInner, encode_append, List.drop_left]

/-
  The Controller counts the end of a last line that has none, and so stops there or one beyond the
  text.
-/
def SameStop (text : List Char) (last stop : Nat) : Prop :=
  stop = last ∨ (stop = last + 1 ∧ last = (encode text).length)

theorem minus_of_le {left right : Nat} (hLe : right ≤ left) :
    minus left right = some (left - right) := by
  rw [minus, if_pos hLe]

/- The agent slices at characters only, so no text and no limit makes its cut panic. -/
theorem clampRetained_never_panics
    (text : List Char)
    (limit : Nat) :
    ∃ kept dropped,
      clampRetained (encode text) limit = some (kept, dropped) ∧
      kept.length + dropped = (encode text).length := by
  unfold clampRetained
  split
  · exact ⟨_, _, rfl, rfl⟩
  · rcases findMarker_spec text with ⟨_, hNone⟩ | ⟨before, marker, after, hFirst, hFind⟩
    · rcases clampTail_spec text limit with ⟨_, _, hText, hTail, _⟩
      rw [hNone]
      refine ⟨_, _, hTail, ?_⟩
      rw [hText, encode_append, List.length_append, Nat.add_comm]
    · rcases slices_of_marker hFirst.text_eq with ⟨hBefore, hAfter, hMarker⟩
      simp only [hFind, hBefore, hAfter, hMarker, Option.bind_eq_bind, Option.bind_some]
      rcases keepFront_spec before _ with ⟨front, _, hFrontOf, hFront, _, hRoom⟩
      rw [hFront, Option.bind_some, minus_of_le (by omega), Option.bind_some]
      rcases clampTail_spec after _ with ⟨_, _, hTailOf, hTail, _⟩
      rw [hTail, Option.bind_some, minus_of_le]
      · refine ⟨_, _, rfl, Nat.add_sub_of_le ?_⟩
        rw [hFirst.text_eq, hFrontOf, hTailOf]
        simp only [encode_append, List.length_append]
        omega
      · rw [hFirst.text_eq, hFrontOf, hTailOf]
        simp only [encode_append, List.length_append]
        omega

theorem search_of_find {first last : Nat}
    (hFind : findMarker 0 (splitInclusive (encode text)) = some (first, last)) : ∃ stop,
      searchMarker 0 ((encode text).splitOn 10) = some (some (first, stop)) ∧
        SameStop text last stop := by
  rcases searchMarker_spec text 0 with ⟨hNone, _⟩ | ⟨_, _, stop, hSome, hSearch, hStop⟩
  · rw [hFind] at hNone
    exact absurd hNone (by simp)
  · rw [hFind, Option.some.injEq, Prod.mk.injEq] at hSome
    rcases hSome with ⟨rfl, rfl⟩
    rw [Nat.zero_add] at hStop
    exact ⟨stop, hSearch, hStop⟩

/- The pieces that the Controller cuts a text into. -/
theorem slices_of_search (hText : text = before ++ marker ++ after)
    {stop : Nat} (hStop : SameStop text ((encode before).length + (encode marker).length) stop) :
    (encode text).take (encode before).length = encode before ∧
    ((encode text).take stop).drop (encode before).length = encode marker ∧
    (encode text).drop stop = encode after := by
  have hBytes : encode text = encode before ++ (encode marker ++ encode after) := by
    rw [hText, encode_append, encode_append, List.append_assoc]
  rcases hStop with rfl | ⟨rfl, hLast⟩
  · rw [hBytes]
    refine ⟨List.take_left, ?_, ?_⟩
    · rw [← List.append_assoc, ← List.length_append, List.take_left, List.drop_left]
    · rw [← List.append_assoc, ← List.length_append, List.drop_left]
  · have hNothing : encode after = [] := by
      rw [hBytes] at hLast
      simp only [List.length_append] at hLast
      exact List.eq_nil_of_length_eq_zero (by omega)
    rw [hLast, List.take_of_length_le (Nat.le_succ _),
      List.drop_of_length_le (Nat.le_succ _), hBytes, hNothing, List.append_nil]
    exact ⟨List.take_left, List.drop_left, rfl⟩

/- Around a marker, both keep the same. -/
theorem cuts_agree_at_marker (hText : text = before ++ marker ++ after)
    {limit : Nat} (hLong : ¬ (encode text).length ≤ limit) (hLimit : (encode marker).length ≤ limit)
    (hFind : findMarker 0 (splitInclusive (encode text)) =
        some ((encode before).length, (encode before).length + (encode marker).length))
    (hSearch : ∃ stop, searchMarker 0 ((encode text).splitOn 10) =
        some (some ((encode before).length, stop)) ∧
        SameStop text ((encode before).length + (encode marker).length) stop) :
    ∃ front back dropped,
      front <+: before ∧ back <:+ after ∧ (encode (front ++ marker ++ back)).length ≤ limit ∧
        (encode (front ++ marker ++ back)).length + dropped = (encode text).length ∧
        clampRetained (encode text) limit = some (encode (front ++ marker ++ back), dropped) ∧
        keepRetained text limit = some (front ++ marker ++ back, (dropped : Int)) := by
  rcases slices_of_marker hText with ⟨hBefore, hAfter, hMarker⟩
  generalize hBudget : limit - (encode marker).length = budget
  generalize hRoom : max (budget / 2) (budget - (encode after).length) = room
  rcases keepFront_spec before room with ⟨front, rest, hFront, hKeep, hFit, hFrontRoom⟩
  rcases clampTail_spec after
    (budget - (encode front).length) with
    ⟨gone, back, hBack, hClamp, hEnd, _⟩
  have hKept : (encode (front ++ marker ++ back)).length = (encode front).length +
      (encode marker).length + (encode back).length := by
    simp only [encode_append, List.length_append]
  have hTotal : (encode text).length = (encode before).length + (encode marker).length +
      (encode after).length := by
    rw [hText]
    simp only [encode_append, List.length_append]
  have hFrontLe : (encode front).length ≤ (encode before).length := by
    rw [hFront, encode_append, List.length_append]
    omega
  have hBackLe : (encode back).length ≤ (encode after).length := by
    rw [hBack, encode_append, List.length_append]
    omega
  have hWithin : (encode (front ++ marker ++ back)).length ≤ limit := by omega
  refine ⟨front, back, (encode text).length - (encode (front ++ marker ++ back)).length,
      ⟨rest, hFront.symm⟩, ⟨gone, hBack.symm⟩, hWithin, by omega, ?_, ?_⟩
  · have hSize : (encode before).length + (encode marker).length -
          (encode before).length = (encode marker).length := by
      omega
    rw [clampRetained, if_neg hLong, hFind]
    simp only [hBefore, hAfter, hMarker, Option.bind_eq_bind, Option.bind_some, hSize, hBudget,
      hRoom, hKeep, minus_of_le (show (encode front).length ≤ budget by omega), hClamp]
    rw [← encode_append, ← encode_append, minus_of_le (by omega)]
    rfl
  · rcases hSearch with ⟨_, hSearch, hStop⟩
    rcases slices_of_search hText hStop with ⟨hPyBefore, hPyMarker, hPyAfter⟩
    have hPyBudget : (limit : Int) - (encode marker).length = (budget : Int) := by omega
    have hPyRoom :
        max ((budget : Int) / 2) ((budget : Int) - (encode after).length) = (room : Int) := by
      omega
    have hPyRest : (budget : Int) - (encode front).length =
      ((budget - (encode front).length : Nat) : Int) := by omega
    have hPyLong : ¬ ((encode text).length : Int) ≤ (limit : Int) := by omega
    rw [keepRetained, if_neg hPyLong, hSearch]
    simp only [Option.bind_eq_bind, Option.bind_some, hPyBefore, hPyMarker, hPyAfter, hPyBudget,
        hPyRoom, hFit, decode_encode, hPyRest, hEnd, Option.pure_def]
    rw [Int.natCast_sub (by omega)]

/- There is one first marker. -/
theorem FirstMarker.unique {before2 marker2 after2 : List Char}
    (hFirst : FirstMarker text before marker after)
    (hOther : FirstMarker text before2 marker2 after2) :
    before2 = before ∧ marker2 = marker ∧ after2 = after := by
  rcases hFirst with ⟨_, _, hLines, hEarlier, hMarker, rfl, rfl⟩
  rcases hOther with ⟨_, _, hLines2, hEarlier2, hMarker2, rfl, rfl⟩
  rw [hLines] at hLines2
  rcases List.append_eq_append_iff.mp hLines2 with ⟨more, hMore, hRest⟩ | ⟨more, hMore, hRest⟩
  · cases more with
    | nil => simp_all
    | cons =>
      rw [List.cons_append, List.cons.injEq] at hRest
      have hFalse := hEarlier2 marker (by
        rw [hMore, hRest.1]
        simp)
      rw [hMarker] at hFalse
      exact absurd hFalse (by decide)
  · cases more with
    | nil => simp_all
    | cons =>
      rw [List.cons_append, List.cons.injEq] at hRest
      have hFalse := hEarlier marker2 (by
        rw [hMore, hRest.1]
        simp)
      rw [hMarker2] at hFalse
      exact absurd hFalse (by decide)

/-
  For a text and a limit that holds its marker line, the agent and the Controller keep the same text
  and report the same number of bytes left out. What is kept are whole characters within the limit,
  with what is left out it makes up the text, and keeping it again changes nothing.
-/
theorem cuts_agree
    (text : List Char)
    (limit : Nat)
    (hLimit :
      ∀ before marker after,
        FirstMarker text before marker after →
        (encode marker).length ≤ limit) :
    ∃ kept dropped,
      clampRetained (encode text) limit = some (encode kept, dropped) ∧
      keepRetained text limit = some (kept, (dropped : Int)) ∧
      (encode kept).length ≤ limit ∧
      (encode kept).length + dropped = (encode text).length ∧
      ((∀ line ∈ inclusiveLines text, isMarkerLine line = false) →
       kept <:+ text) ∧
      (∀ before marker after,
         FirstMarker text before marker after →
         ∃ front back,
           kept = front ++ marker ++ back ∧
           front <+: before ∧
           back <:+ after) ∧
      clampRetained (encode kept) limit = some (encode kept, 0) ∧
      keepRetained kept limit = some (kept, 0) := by
  -- What fits is kept, so only the first cut is in question.
  have hAgain : ∀ kept : List Char, (encode kept).length ≤ limit →
      clampRetained (encode kept) limit = some (encode kept, 0) ∧
      keepRetained kept limit = some (kept, 0) := by
    intro _ hKept
    refine ⟨?_, ?_⟩
    · rw [clampRetained, if_pos hKept]
    · rw [keepRetained, if_pos (by omega)]
  by_cases hFits : (encode text).length ≤ limit
  · rcases hAgain text hFits with ⟨hClamp, hKeep⟩
    refine ⟨text, 0, hClamp, hKeep, hFits, rfl, fun _ => List.suffix_rfl, ?_, hClamp, hKeep⟩
    intro before _ after hFirst
    exact ⟨before, after, hFirst.text_eq, List.prefix_rfl, List.suffix_rfl⟩
  · rcases findMarker_spec text with
      ⟨hNone, hFind⟩ | ⟨before, marker, after, hFirst, hFind⟩
    · rcases clampTail_spec text limit with
        ⟨gone, kept, hText, hClamp, hEnd, hKept⟩
      rcases hAgain kept hKept with ⟨hClamped, hKeeps⟩
      refine ⟨kept, (encode gone).length, ?_, ?_, hKept, ?_,
        fun _ => ⟨gone, hText.symm⟩, ?_, hClamped, hKeeps⟩
      · rw [clampRetained, if_neg hFits, hFind]
        exact hClamp
      · rcases searchMarker_spec text 0 with
          ⟨_, hSearch⟩ | ⟨_, _, _, hSome, _⟩
        · rw [keepRetained, if_neg (by omega), hSearch]
          simp only [Option.bind_eq_bind, Option.bind_some, hEnd, Option.pure_def]
        · rw [hFind] at hSome
          exact absurd hSome (by simp)
      · rw [hText, encode_append, List.length_append]
        omega
      · rintro _ marker _ ⟨_, _, hLines, _, hMarker, _⟩
        have hFalse := hNone marker (by
          rw [hLines]
          simp)
        rw [hMarker] at hFalse
        exact absurd hFalse (by decide)
    · rcases cuts_agree_at_marker hFirst.text_eq hFits
        (hLimit before marker after hFirst) hFind
        (search_of_find hFind) with
        ⟨front, back, dropped, hFront, hBack, hWithin, hTotal, hClamp, hKeep⟩
      rcases hAgain _ hWithin with ⟨hClamped, hKeeps⟩
      refine ⟨front ++ marker ++ back, dropped, hClamp, hKeep,
        hWithin, hTotal, ?_, ?_, hClamped, hKeeps⟩
      · intro hNone
        rcases hFirst with ⟨_, _, hLines, _, hMarker, _⟩
        have hFalse := hNone marker (by
          rw [hLines]
          simp)
        rw [hMarker] at hFalse
        exact absurd hFalse (by decide)
      · intro _ _ _ hOther
        rcases hFirst.unique hOther with ⟨rfl, rfl, rfl⟩
        exact ⟨front, back, rfl, hFront, hBack⟩

/- Causes, a marker and a window, of which not all fits. -/
def markedTail : List Char := "é: no\nstop\n[7 bytes omitted]\nab\ncd\n".toList

theorem markedTail_first : FirstMarker markedTail "é: no\nstop\n".toList
    "[7 bytes omitted]\n".toList "ab\ncd\n".toList := by
  refine ⟨["é: no\n".toList, "stop\n".toList],
    ["ab\n".toList, "cd\n".toList], ?_, ?_, ?_, ?_, ?_⟩ <;>
  decide +kernel

/- A marker line is kept, and both cut alike around it. -/
theorem markedTail_is_cut :
    FirstMarker markedTail "é: no\nstop\n".toList
      "[7 bytes omitted]\n".toList "ab\ncd\n".toList ∧
    (encode markedTail).length = 36 ∧
    ∃ kept dropped,
      clampRetained (encode markedTail) 28 =
        some (encode kept, dropped) ∧
      keepRetained markedTail 28 = some (kept, (dropped : Int)) ∧
      (encode kept).length ≤ 28 := by
  refine ⟨markedTail_first, by decide +kernel, ?_⟩
  rcases cuts_agree markedTail 28 (by
    intro _ _ _ hFirst
    rcases markedTail_first.unique hFirst with ⟨_, rfl, _⟩
    decide +kernel) with
    ⟨kept, dropped, hClamp, hKeep, hKept, _⟩
  exact ⟨kept, dropped, hClamp, hKeep, hKept⟩

end VonkForge.Evidence
