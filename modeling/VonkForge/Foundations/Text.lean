import Mathlib

/-
  Text, as characters and as the bytes of its encoding.

  A text is read as a list of characters, cut at separators and trimmed, and written as bytes. The
  cuts say where the pieces stood in the text that was cut.

  Main declarations:
    * `encode`
    * `decode_encode`
    * `crlfLines_append`
    * `splitOnce_spec`
    * `splitLast_spec`
-/

----
-- Bytes
----

namespace Text

/- The bytes of a text, in UTF-8. -/
def encode (text : List Char) : List UInt8 := text.flatMap String.utf8EncodeChar

/- The text of which these are the bytes, if there is one. -/
def decode (bytes : List UInt8) : Option (List Char) :=
  bytes.toByteArray.utf8Decode?.map Array.toList

@[simp] theorem encode_append (left right : List Char) :
    encode (left ++ right) = encode left ++ encode right :=
  List.flatMap_append

theorem encode_cons (letter : Char) (text : List Char) :
    encode (letter :: text) = encode [letter] ++ encode text :=
  encode_append [letter] text

/- Decoding the bytes of a text gives the text. -/
theorem decode_encode (text : List Char) :
    decode (encode text) = some text := by
  have hDecode : (encode text).toByteArray.utf8Decode? = some text.toArray :=
    List.utf8Decode?_utf8Encode
  rw [decode, hDecode]
  rfl

end Text

----
-- Cutting a Text
----

namespace Text

/- What is before and after the first separator. -/
def splitOnce (separator : Char) : List Char → Option (List Char × List Char)
  | [] => none
  | letter :: rest =>
    if letter = separator then some ([], rest)
    else (splitOnce separator rest).map (fun parts => (letter :: parts.1, parts.2))

variable (separator : Char) (text : List Char)

/- What is before and after the last separator. -/
def splitLast : Option (List Char × List Char) :=
  (splitOnce separator text.reverse).map (fun parts => (parts.2.reverse, parts.1.reverse))

/- A text is split at its first separator. -/
theorem splitOnce_spec
    {separator : Char}
    {text before after : List Char}
    (hSplit : splitOnce separator text = some (before, after)) :
    text = before ++ separator :: after ∧ separator ∉ before := by
  induction text generalizing before with
  | nil => cases hSplit
  | cons letter rest ih =>
    unfold splitOnce at hSplit
    split at hSplit
    · rename_i hSame
      cases hSplit
      simp [hSame]
    · rename_i hOther
      rcases Option.map_eq_some_iff.mp hSplit with ⟨_, hRest, hParts⟩
      cases hParts
      rcases ih hRest with ⟨hText, hBefore⟩
      constructor
      · rw [List.cons_append, ← hText]
      · rw [List.mem_cons, not_or]
        exact ⟨fun hSame => hOther hSame.symm, hBefore⟩

theorem splitOnce_append {separator : Char} {before : List Char} (hBefore : separator ∉ before)
    (after : List Char) :
    splitOnce separator (before ++ separator :: after) = some (before, after) := by
  induction before with
  | nil => simp [splitOnce]
  | cons letter before ih =>
    rw [List.mem_cons, not_or] at hBefore
    rw [List.cons_append, splitOnce, if_neg (Ne.symm hBefore.1), ih hBefore.2]
    rfl

theorem splitLast_append {separator : Char} (before : List Char) {after : List Char}
    (hAfter : separator ∉ after) :
    splitLast separator (before ++ separator :: after) = some (before, after) := by
  have hReversed : (before ++ separator :: after).reverse =
      after.reverse ++ separator :: before.reverse := by simp
  rw [splitLast, hReversed, splitOnce_append (by simpa using hAfter)]
  simp

/- And at its last. -/
theorem splitLast_spec
    {separator : Char}
    {text before after : List Char}
    (hSplit : splitLast separator text = some (before, after)) :
    text = before ++ separator :: after ∧ separator ∉ after := by
  rcases Option.map_eq_some_iff.mp hSplit with ⟨_, hParts, hSame⟩
  cases hSame
  rcases splitOnce_spec hParts with ⟨hText, hAfter⟩
  constructor
  · have hReversed := congrArg List.reverse hText
    simpa using hReversed
  · simpa using hAfter

/- No piece holds the separator. -/
theorem not_mem_of_mem_splitOn : ∀ piece ∈ text.splitOn separator, separator ∉ piece := by
  induction text with
  | nil =>
    intro _ hPiece
    simp only [List.splitOn_nil, List.mem_singleton] at hPiece
    simp [hPiece]
  | cons letter rest ih =>
    intro piece hPiece
    simp only [List.splitOn, List.splitOnP_cons_eq_if_modifyHead] at hPiece
    split at hPiece
    · rcases List.mem_cons.mp hPiece with rfl | hRest
      · simp
      · exact ih piece hRest
    · rename_i hOther
      cases hPieces : rest.splitOnP (· == separator) with
      | nil =>
        rw [hPieces] at hPiece
        cases hPiece
      | cons first others =>
        rw [hPieces, List.modifyHead_cons] at hPiece
        have hKnown : ∀ other ∈ first :: others, separator ∉ other := by
          rw [← hPieces]
          exact ih
        rcases List.mem_cons.mp hPiece with rfl | hTail
        · rw [List.mem_cons, not_or]
          constructor
          · intro hSame
            apply hOther
            simp [hSame]
          · exact hKnown first List.mem_cons_self
        · exact hKnown piece (List.mem_cons_of_mem _ hTail)

/- A letter that separates nothing stands in a piece. -/
theorem mem_splitOn_of_mem {letter : Char} (hMem : letter ∈ text) :
    letter = separator ∨ ∃ piece ∈ text.splitOn separator, letter ∈ piece := by
  have hJoined : [separator].intercalate (text.splitOn separator) = text :=
    List.intercalate_splitOn separator
  rw [← hJoined] at hMem
  clear hJoined
  generalize text.splitOn separator = pieces at hMem ⊢
  induction pieces with
  | nil => cases hMem
  | cons first pieces ih =>
    cases pieces with
    | nil => exact Or.inr ⟨first, List.mem_cons_self, by simpa [List.intercalate] using hMem⟩
    | cons =>
      rw [List.intercalate_cons_cons, List.mem_append, List.mem_append, List.mem_singleton] at hMem
      rcases hMem with (hFirst | hSame) | hLater
      · exact Or.inr ⟨first, List.mem_cons_self, hFirst⟩
      · exact Or.inl hSame
      · refine (ih hLater).imp id ?_
        rintro ⟨piece, hPiece, hLetter⟩
        exact ⟨piece, List.mem_cons_of_mem _ hPiece, hLetter⟩

/- Put a part in front of the first of some pieces. -/
def glue {α : Type} (front : List α) : List (List α) → List (List α)
  | [] => [front]
  | first :: rest => (front ++ first) :: rest

/- The pieces of a list, each with its separator. -/
def inclusive {α : Type} [DecidableEq α] (separator : α) : List α → List (List α)
  | [] => []
  | item :: rest =>
    if item = separator then [item] :: inclusive separator rest
    else glue [item] (inclusive separator rest)

theorem flatten_glue {α : Type} (front : List α) (pieces : List (List α)) :
    (glue front pieces).flatten = front ++ pieces.flatten := by
  cases pieces with
  | nil | cons => simp [glue]

theorem flatten_inclusive {α : Type} [DecidableEq α] (separator : α) (items : List α) :
    (inclusive separator items).flatten = items := by
  induction items with
  | nil => rfl
  | cons _ _ ih =>
    unfold inclusive
    split
    · rw [List.flatten_cons, ih]
      rfl
    · rw [flatten_glue, ih]
      rfl

/- A part without separators belongs to one piece. -/
theorem inclusive_append {α : Type} [DecidableEq α] {separator : α}
    {front : List α} (hFront : separator ∉ front) (hSome : front ≠ []) (rest : List α) :
    inclusive separator (front ++ rest) = glue front (inclusive separator rest) := by
  induction front with
  | nil => exact absurd rfl hSome
  | cons _ others ih =>
    rw [List.mem_cons, not_or] at hFront
    rw [List.cons_append, inclusive, if_neg (fun hSame => hFront.1 hSame.symm)]
    cases others with
    | nil => rfl
    | cons =>
      rw [ih hFront.2 (List.cons_ne_nil _ _)]
      cases inclusive separator rest with
      | nil | cons => rfl

/- A piece that ends with its separator. -/
theorem inclusive_append_cons {α : Type} [DecidableEq α] {separator : α} {front : List α}
    (hFront : separator ∉ front) (rest : List α) :
    inclusive separator (front ++ separator :: rest) = (front ++ [separator]) ::
    inclusive separator rest := by
  have hSeparator :
      inclusive separator (separator :: rest) = [separator] :: inclusive separator rest := by
    rw [inclusive, if_pos rfl]
  cases front with
  | nil => exact hSeparator
  | cons =>
    rw [inclusive_append hFront (List.cons_ne_nil _ _), hSeparator]
    rfl

/- The lines of a text, which end with a CRLF. -/
def crlfLines : List Char → List (List Char)
  | [] => [[]]
  | '\r' :: '\n' :: rest => [] :: crlfLines rest
  | letter :: rest => (crlfLines rest).modifyHead (List.cons letter)

/- No CR of the text is followed by an LF. -/
def pairFree : List Char → Prop
  | [] => True
  | letter :: rest => (letter = '\r' → rest.head? ≠ some '\n') ∧ pairFree rest

theorem pairFree_append_iff {left right : List Char} :
    pairFree (left ++ right) ↔ pairFree left ∧ pairFree right ∧
      (left.getLast? = some '\r' → right.head? ≠ some '\n') := by
  induction left with
  | nil => simp [pairFree]
  | cons letter left ih =>
    rw [List.cons_append, pairFree, pairFree, ih]
    cases left with
    | nil => simp [pairFree]; tauto
    | cons second left =>
      simp only [List.cons_append, List.head?_cons, List.getLast?_cons_cons]
      tauto

theorem pairFree_of_notMem {text : List Char} (hText : '\r' ∉ text) : pairFree text := by
  induction text with
  | nil => trivial
  | cons letter rest ih =>
    rw [List.mem_cons, not_or] at hText
    exact ⟨fun hSame => absurd hSame.symm hText.1, ih hText.2⟩

/- The first line starts as the text does, or is empty. -/
theorem exists_crlfLines (text : List Char) :
    ∃ first others, crlfLines text = first :: others ∧
      (first.head? = none ∨ first.head? = text.head?) := by
  fun_induction crlfLines text with
  | case1 => exact ⟨[], [], rfl, Or.inl rfl⟩
  | case2 rest => exact ⟨[], crlfLines rest, rfl, Or.inl rfl⟩
  | case3 letter rest _ ih =>
    rcases ih with ⟨first, others, hLines, _⟩
    exact ⟨letter :: first, others, by rw [hLines, List.modifyHead_cons], Or.inr rfl⟩

theorem pairFree_crlfLines (text : List Char) : ∀ line ∈ crlfLines text, pairFree line := by
  fun_induction crlfLines text with
  | case1 => simp [pairFree]
  | case2 rest ih => simpa [pairFree] using ih
  | case3 letter rest hPair ih =>
    rcases exists_crlfLines rest with ⟨first, others, hLines, hHead⟩
    rw [hLines] at ih
    rw [hLines, List.modifyHead_cons]
    refine List.forall_mem_cons.mpr ⟨⟨?_, ih first List.mem_cons_self⟩,
      fun line hLine => ih line (List.mem_cons_of_mem _ hLine)⟩
    intro hReturn hFeed
    rw [hFeed] at hHead
    rcases hHead with hNone | hSame
    · cases hNone
    · cases rest with
      | nil => cases hSame
      | cons second rest =>
        exact hPair rest hReturn (by rw [← Option.some.inj hSame])

/- A line without a line end ends at the next one. -/
theorem crlfLines_append
    {line : List Char}
    (hLine : pairFree line)
    (hLast : line.getLast? ≠ some '\r')
    (rest : List Char) :
    crlfLines (line ++ '\r' :: '\n' :: rest) =
      line :: crlfLines rest := by
  induction line with
  | nil => rfl
  | cons letter line ih =>
    have hRest : crlfLines (line ++ '\r' :: '\n' :: rest) = line :: crlfLines rest := by
      refine ih hLine.2 ?_
      cases line with
      | nil => simp
      | cons => simpa using hLast
    rw [List.cons_append, crlfLines, hRest, List.modifyHead_cons]
    rintro after rfl hAfter
    have hFeed := hLine.1 rfl
    cases line with
    | nil => exact hLast rfl
    | cons second line =>
      obtain ⟨rfl, -⟩ := List.cons.inj hAfter
      exact hFeed rfl
def dropReturn (line : List Char) : List Char :=
  if line.getLast? = some '\r' then line.dropLast else line

/- The lines of a text, which end with an LF or a CRLF. -/
def lines (text : List Char) : List (List Char) :=
  let pieces := text.splitOn '\n'
  pieces.dropLast.map dropReturn ++ (pieces.getLast?.filter (· ≠ [])).toList

/- The white space of Unicode. -/
def isWhitespace (letter : Char) : Bool :=
  let code := letter.toNat
  (9 ≤ code ∧ code ≤ 13) ∨ code = 32 ∨ code = 0x85 ∨ code = 0xA0 ∨ code = 0x1680 ∨
    (0x2000 ≤ code ∧ code ≤ 0x200A) ∨ code = 0x2028 ∨ code = 0x2029 ∨ code = 0x202F ∨
    code = 0x205F ∨ code = 0x3000

def trim (text : List Char) : List Char :=
  ((text.dropWhile isWhitespace).reverse.dropWhile isWhitespace).reverse

/- Letters of ASCII are made lower case, others are kept. -/
def lower (text : List Char) : List Char := text.map Char.toLower

end Text
