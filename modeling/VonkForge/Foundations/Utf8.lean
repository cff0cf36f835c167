import VonkForge.Foundations.Text

/-
  Where the characters of a text begin in its bytes.

  The first byte of a character is never a continuation, and the others always are. So a position is
  one between two characters if the byte there is no continuation, and a cut there gives two texts.

  Main declarations:
    * `isContinuation`
    * `boundary_of_getElem?`
    * `Boundary.getElem?`
    * `boundary_succ_of_ascii`
-/

----
-- The Bytes of a Character
----

namespace Text

/- A byte that goes on with a character. -/
def isContinuation (byte : UInt8) : Bool := 128 ≤ byte.toNat ∧ byte.toNat < 192

theorem toNat_octet {number : Nat} (hNumber : number < 256) : (UInt8.ofNat number).toNat = number :=
  UInt8.toNat_ofNat_of_lt' hNumber

theorem isContinuation_low (number : Nat) :
    isContinuation (UInt8.ofNat (number % 64 + 128)) := by
  rw [isContinuation, toNat_octet (by omega), decide_eq_true_eq]
  omega

theorem isContinuation_high {number : Nat} (hLow : 192 ≤ number) (hHigh : number < 256) :
    isContinuation (UInt8.ofNat number) = false := by
  rw [isContinuation, toNat_octet hHigh, decide_eq_false_iff_not]
  omega

theorem isContinuation_ascii {byte : UInt8} (hAscii : byte.toNat < 128) :
    isContinuation byte = false := by
  rw [isContinuation, decide_eq_false_iff_not]
  omega

/- A first byte, and continuations if it is not ASCII. -/
theorem utf8EncodeChar_spec (letter : Char) : ∃ first rest,
      String.utf8EncodeChar letter = first :: rest ∧ isContinuation first = false ∧
        (∀ byte ∈ rest, isContinuation byte) ∧ (first.toNat < 128 → rest = []) := by
  unfold String.utf8EncodeChar
  simp only
  split
  · refine ⟨_, [], rfl, ?_, ?_, fun _ => rfl⟩
    · apply isContinuation_ascii
      rw [toNat_octet (by omega)]
      omega
    · intro _ hByte
      cases hByte
  · split
    · refine ⟨_, _, rfl, ?_, ?_, ?_⟩
      · exact isContinuation_high (by omega) (by omega)
      · intro _ hByte
        rw [List.mem_singleton.mp hByte]
        exact isContinuation_low _
      · intro hAscii
        rw [toNat_octet (by omega)] at hAscii
        omega
    · split
      · refine ⟨_, _, rfl, ?_, ?_, ?_⟩
        · exact isContinuation_high (by omega) (by omega)
        · intro _ hByte
          simp only [List.mem_cons, List.not_mem_nil, or_false] at hByte
          rcases hByte with rfl | rfl
          · exact isContinuation_low _
          · exact isContinuation_low _
        · intro hAscii
          rw [toNat_octet (by omega)] at hAscii
          omega
      · refine ⟨_, _, rfl, ?_, ?_, ?_⟩
        · exact isContinuation_high (by omega) (by omega)
        · intro _ hByte
          simp only [List.mem_cons, List.not_mem_nil, or_false] at hByte
          rcases hByte with rfl | rfl | rfl
          · exact isContinuation_low _
          · exact isContinuation_low _
          · exact isContinuation_low _
        · intro hAscii
          rw [toNat_octet (by omega)] at hAscii
          omega

theorem encode_injective {left right : List Char} (hSame : encode left = encode right) :
    left = right := by
  have hDecoded := decode_encode left
  rw [hSame, decode_encode] at hDecoded
  exact (Option.some.inj hDecoded).symm

end Text

----
-- Between Two Characters
----

namespace Text

/- A position in the bytes where a character may begin. -/
def Boundary (text : List Char) (index : Nat) : Prop :=
  ∃ before after, text = before ++ after ∧ (encode before).length = index

theorem boundary_zero (text : List Char) : Boundary text 0 := ⟨[], text, rfl, rfl⟩

theorem boundary_length (text : List Char) : Boundary text (encode text).length :=
  ⟨text, [], (List.append_nil text).symm, rfl⟩

variable {text : List Char} {index : Nat} {byte : UInt8}

theorem Boundary.cons (hBoundary : Boundary text index) (letter : Char) :
    Boundary (letter :: text) ((encode [letter]).length + index) := by
  rcases hBoundary with ⟨before, after, rfl, rfl⟩
  refine ⟨letter :: before, after, rfl, ?_⟩
  rw [encode_cons, List.length_append]

/- What a cut there leaves. -/
theorem Boundary.cut (hBoundary : Boundary text index) : ∃ before after, text = before ++ after ∧
    (encode text).take index = encode before ∧ (encode text).drop index = encode after := by
  rcases hBoundary with ⟨before, after, rfl, rfl⟩
  refine ⟨before, after, rfl, ?_, ?_⟩
  · rw [encode_append, List.take_left]
  · rw [encode_append, List.drop_left]

theorem encode_singleton (letter : Char) : encode [letter] = String.utf8EncodeChar letter := by
  simp [encode]

/- A byte that is no continuation begins a character. -/
theorem boundary_of_getElem?
    (hByte : (encode text)[index]? = some byte)
    (hFirst : isContinuation byte = false) :
    Boundary text index := by
  induction text generalizing index with
  | nil => cases hByte
  | cons letter _ ih =>
    rcases utf8EncodeChar_spec letter with ⟨_, _, hBytes, _, hOthers, _⟩
    rw [← encode_singleton] at hBytes
    rw [encode_cons] at hByte
    by_cases hInside : index < (encode [letter]).length
    · rw [List.getElem?_append_left hInside, hBytes] at hByte
      cases index with
      | zero => exact boundary_zero _
      | succ =>
        rw [List.getElem?_cons_succ] at hByte
        have hMem := List.mem_of_getElem? hByte
        rw [hOthers byte hMem] at hFirst
        cases hFirst
    · rw [List.getElem?_append_right (by omega)] at hByte
      have hNext := (ih hByte).cons letter
      rwa [Nat.add_sub_cancel' (by omega)] at hNext

/- Where a character begins there is no continuation. -/
theorem Boundary.getElem?
    (hBoundary : Boundary text index)
    (hByte : (encode text)[index]? = some byte) :
    isContinuation byte = false := by
  rcases hBoundary with ⟨_, after, rfl, rfl⟩
  rw [encode_append, List.getElem?_append_right le_rfl, Nat.sub_self] at hByte
  cases after with
  | nil => cases hByte
  | cons letter =>
    rcases utf8EncodeChar_spec letter with ⟨_, _, hBytes, hFirst, _⟩
    rw [encode_cons, encode_singleton, hBytes] at hByte
    rw [← Option.some.inj hByte]
    exact hFirst

/- After a character of one byte, the next one begins. -/
theorem boundary_succ_of_ascii
    (hByte : (encode text)[index]? = some byte)
    (hAscii : byte.toNat < 128) :
    Boundary text (index + 1) := by
  rcases boundary_of_getElem? hByte (isContinuation_ascii hAscii) with ⟨before, after, rfl, rfl⟩
  rw [encode_append, List.getElem?_append_right le_rfl, Nat.sub_self] at hByte
  cases after with
  | nil => cases hByte
  | cons letter rest =>
    rcases utf8EncodeChar_spec letter with ⟨first, _, hBytes, _, _, hSingle⟩
    rw [encode_cons, encode_singleton, hBytes] at hByte
    have hSame : first = byte := Option.some.inj hByte
    have hNone := hSingle (by rw [hSame]; exact hAscii)
    refine ⟨before ++ [letter], rest, ?_, ?_⟩
    · rw [List.append_assoc]
      rfl
    · rw [encode_append, encode_singleton, hBytes, hNone, List.length_append]
      rfl

/- Bytes of ASCII stand for characters of ASCII only. -/
theorem mem_encode_ascii (hAscii : byte.toNat < 128) (hByte : byte ∈ encode text) :
    Char.ofNat byte.toNat ∈ text := by
  rcases List.mem_flatMap.mp hByte with ⟨letter, hLetter, hMem⟩
  have hSame : letter.toNat = byte.toNat := by
    change letter.val.toNat = byte.toNat
    unfold String.utf8EncodeChar at hMem
    simp only at hMem
    split_ifs at hMem <;>
      simp only [List.mem_cons, List.not_mem_nil, or_false, ← UInt8.toNat_inj,
        UInt8.toNat_ofNat'] at hMem <;>
      omega
  rw [← hSame, Char.ofNat_toNat]
  exact hLetter

theorem newline_notMem_encode {letter : Char} (hLetter : letter ≠ '\n') :
    (10 : UInt8) ∉ encode [letter] := by
  intro hByte
  have hMem := mem_encode_ascii (by decide) hByte
  exact hLetter (List.mem_singleton.mp hMem).symm

theorem encode_singleton_ne_nil (letter : Char) : encode [letter] ≠ [] := by
  rcases utf8EncodeChar_spec letter with ⟨_, _, hEncoded, _⟩
  rw [encode_singleton, hEncoded]
  exact List.cons_ne_nil _ _

/- In ASCII, a character is a byte. -/
theorem length_encode_of_ascii (hText : ∀ letter ∈ text, letter.toNat < 128) :
    (encode text).length = text.length := by
  induction text with
  | nil => rfl
  | cons letter _ ih =>
    have hSize : letter.utf8Size = 1 := by
      have hSmall := hText letter List.mem_cons_self
      rw [Char.utf8Size_eq_one_iff, UInt32.le_iff_toNat_le]
      exact Nat.le_of_lt_succ hSmall
    rw [encode_cons, List.length_append, encode_singleton, String.length_utf8EncodeChar, hSize,
      ih (fun other hOther => hText other (List.mem_cons_of_mem _ hOther)),
      List.length_cons, Nat.add_comm]

/- The lines of a text, in its bytes. -/
theorem inclusive_encode (text : List Char) :
    inclusive 10 (encode text) = (inclusive '\n' text).map encode := by
  induction text with
  | nil => rfl
  | cons letter rest ih =>
    rw [encode_cons, inclusive]
    by_cases hEnd : letter = '\n'
    · rw [if_pos hEnd, List.map_cons, ← ih, hEnd]
      rfl
    · rw [if_neg hEnd,
        inclusive_append (newline_notMem_encode hEnd) (encode_singleton_ne_nil letter), ih]
      cases inclusive '\n' rest with
      | nil => rfl
      | cons first => simp [glue, encode_cons letter first]

end Text
