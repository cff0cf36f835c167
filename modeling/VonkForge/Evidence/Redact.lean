import VonkForge.Evidence.Opaque
import VonkForge.Foundations.Utf8

/-
  Where the agent and the Controller redact alike.

  A word is taken apart into its runs of opaque characters, each with what stands before and after
  it. The agent never redacts a run beside a dot. The pattern of the Controller does not match up to
  a dot, but it still matches inside of such a run, from behind one of `+`, `=`, `_` and `-` to
  before another one.

  Main declarations:
    * `Run`
    * `redactLoop_eq`
    * `substitute_run`
    * `redactions_agree_iff`
-/

----
-- Characters and Fields
----

namespace VonkForge.Evidence

open Text

theorem ascii_of_charset {c : Char} (hOpaque : charset c) : c.toNat < 128 := by
  unfold charset Char.isAlphanum Char.isAlpha Char.isUpper Char.isLower Char.isDigit at hOpaque
  simp only [Bool.or_eq_true, Bool.and_eq_true, decide_eq_true_eq, List.contains_eq_mem,
      List.mem_cons, List.not_mem_nil, or_false, ge_iff_le, UInt32.le_iff_toNat_le] at hOpaque
  rcases hOpaque with ((⟨_, hLe⟩ | ⟨_, hLe⟩) | ⟨_, hLe⟩) | (rfl | rfl | rfl | rfl | rfl)
  · exact Nat.lt_of_le_of_lt hLe (by decide)
  · exact Nat.lt_of_le_of_lt hLe (by decide)
  · exact Nat.lt_of_le_of_lt hLe (by decide)
  all_goals decide

/- What a name goes on with. -/
def nameChar (c : Char) : Bool := c.isAlphanum || c == '_'

theorem length_encode_opaque {text : List Char} (hText : ∀ c ∈ text, charset c) :
    (encode text).length = text.length :=
  length_encode_of_ascii (fun c hc => ascii_of_charset (hText c hc))

theorem charset_of_nameChar {c : Char} (hName : nameChar c) : charset c := by
  unfold nameChar at hName
  unfold charset
  rcases Bool.or_eq_true_iff.mp hName with hAlnum | hLine
  · rw [hAlnum]
    rfl
  · rw [beq_iff_eq.mp hLine]
    rfl

/- No match shorter than the name has a value. -/
theorem valueAfter_run {run tail : List Char} (hRun : ∀ c ∈ run, nameChar c)
    {bound : Nat} (hBound : bound < run.length) : valueAfter (run ++ tail) bound = none := by
  have hHead :
      ∀ n, n < run.length → ∃ c rest, nameChar c ∧ (run ++ tail).drop n = c :: rest := by
    intro n hn
    refine ⟨run[n], run.drop (n + 1) ++ tail, hRun _ (List.getElem_mem hn), ?_⟩
    rw [List.drop_append_of_le_length (Nat.le_of_lt hn),
      List.drop_eq_getElem_cons hn, List.cons_append]
  have hHere : ∀ n, n < run.length → valueHere ((run ++ tail).drop n) = none := by
    intro n hn
    rcases hHead n hn with ⟨_, _, hName, hDrop⟩
    rw [hDrop, valueHere, if_neg]
    rintro rfl
    exact absurd hName (by decide)
  induction bound with
  | zero => exact hHere 0 hBound
  | succ bound ih =>
    rw [valueAfter, hHere (bound + 1) hBound]
    exact ih (by omega)

variable (isCode : List Char → Bool)

/- A first character that no name begins with. -/
theorem isRefusalField_of_first {first : Char}
    (hFirst : (first.isAlpha || first == '_') = false) (rest : List Char) :
    isRefusalField isCode (first :: rest) = false := by
  unfold isRefusalField
  split
  · rename_i name value hSplit
    have hText := (splitOnce_spec hSplit).1
    cases name with
    | nil => rfl
    | cons =>
      rw [List.cons_append, List.cons.injEq] at hText
      rw [← hText.1, isFieldName, hFirst]
      simp
  · rfl

theorem splitOnce_append {separator : Char} {front : List Char} (hFront : separator ∉ front)
    (text : List Char) : splitOnce separator (front ++ text) =
    (splitOnce separator text).map (fun parts => (front ++ parts.1, parts.2)) := by
  induction front with
  | nil => simp
  | cons _ _ ih =>
    rw [List.mem_cons, not_or] at hFront
    rw [List.cons_append, splitOnce, if_neg (Ne.symm hFront.1), ih hFront.2, Option.map_map]
    rfl

/- A name goes on until a character that it cannot have. -/
section Fields

variable {first : Char} (hFirst : (first.isAlpha || first == '_') = true) {run tail : List Char}
variable (hRun : ∀ c ∈ run, nameChar c = true) (hTail : ∀ c ∈ tail.head?, nameChar c = false)

include hFirst hRun hTail

theorem fieldValue_of_run :
    fieldValue (first :: (run ++ tail)) = if run.length ≤ 31 then valueHere tail else none := by
  have hTake : (run ++ tail).takeWhile (fun c => c.isAlphanum || c == '_') = run :=
    Scan.takeWhile_run hRun hTail
  rw [fieldValue, if_pos hFirst, hTake]
  by_cases hShort : run.length ≤ 31
  · rw [if_pos hShort, Nat.min_eq_right hShort]
    cases hLength : run.length with
    | zero =>
      rw [List.length_eq_zero_iff.mp hLength]
      rfl
    | succ n =>
      have hShorter : valueAfter (run ++ tail) n = none := valueAfter_run hRun (by omega)
      rw [valueAfter, ← hLength, List.drop_left, hShorter]
      cases valueHere tail <;> rfl
  · rw [if_neg hShort]
    exact valueAfter_run hRun (by omega)

theorem isRefusalField_of_run (isCode : List Char → Bool) :
    isRefusalField isCode (first :: (run ++ tail)) =
      (decide (run.length ≤ 31) && (valueHere tail).any isCode) := by
  have hName : ∀ c ∈ first :: run, nameChar c := by
    intro c hc
    rcases List.mem_cons.mp hc with rfl | hMem
    · unfold nameChar Char.isAlphanum
      rcases Bool.or_eq_true_iff.mp hFirst with hAlpha | hLine
      · rw [hAlpha]
        rfl
      · rw [hLine, Bool.or_true]
    · exact hRun c hMem
  have hSeparator : '=' ∉ first :: run := by
    intro hMem
    exact absurd (hName '=' hMem) (by decide)
  rw [isRefusalField, ← List.cons_append, splitOnce_append hSeparator tail]
  cases tail with
  | nil => simp [splitOnce, valueHere]
  | cons c tail =>
    by_cases hEq : c = '='
    · have hLength : (encode (first :: run)).length = run.length + 1 :=
        length_encode_opaque (fun d hd => charset_of_nameChar (hName d hd))
      have hAll : run.all (fun d => d.isAlphanum || d == '_') = true := List.all_eq_true.mpr hRun
      rw [splitOnce, if_pos hEq, valueHere, if_pos hEq]
      simp only [Option.map_some, List.append_nil,
        isFieldName, hLength, hFirst, hAll, Bool.and_true, Option.any_some]
      congr 2
      simp only [Nat.reduceLeDiff]
    · rw [splitOnce, if_neg hEq, valueHere, if_neg hEq, Option.map_map]
      cases splitOnce '=' tail with
      | none => simp
      | some =>
        have hNot : nameChar c = false := hTail c rfl
        unfold nameChar at hNot
        simp [isFieldName, hNot]

end Fields

variable (token : List Char)

theorem redactMatch_eq_ite :
    redactMatch isCode token =
      if (fieldValue token).any isCode then token
      else opaqueMarker := by
  unfold redactMatch
  cases fieldValue token <;> rfl

/- Both keep the same values. -/
theorem redactMatch_eq : redactMatch isCode token = redactOpaque isCode token := by
  have hSame : (fieldValue token).any isCode = isRefusalField isCode token := by
    cases token with
    | nil => rfl
    | cons first rest =>
      by_cases hFirst : (first.isAlpha || first == '_') = true
      · rcases Scan.exists_run nameChar rest with ⟨run, _, rfl, hRun, hTail⟩
        rw [fieldValue_of_run hFirst hRun hTail, isRefusalField_of_run hFirst hRun hTail isCode]
        by_cases hShort : run.length ≤ 31
        · rw [if_pos hShort, decide_eq_true hShort]
          rfl
        · rw [if_neg hShort, decide_eq_false hShort]
          rfl
      · rw [isRefusalField_of_first isCode (Bool.eq_false_iff.mpr hFirst), fieldValue,
            if_neg hFirst]
        rfl
  rw [redactMatch_eq_ite, hSame, redactOpaque]

----
-- Runs
----

/- Opaque characters, with what is before and after them. -/
structure Run where
  before : Option Char
  text : List Char
  after : Option Char

/- The runs of a word, behind the one that is being read. -/
def runsFrom : Option Char → List Char → List Char → List Run
  | before, text, [] => [⟨before, text, none⟩]
  | before, text, c :: word =>
    if charset c then runsFrom before (text ++ [c]) word
    else ⟨before, text, some c⟩ :: runsFrom (some c) [] word

variable (word : List Char)

def opaqueRuns : List Run := runsFrom none [] word

/- A word with each of its runs written anew. -/
def rewriteRuns (rewrite : Run → List Char) : Option Char → List Char → List Char → List Char
  | before, text, [] => rewrite ⟨before, text, none⟩
  | before, text, c :: word =>
    if charset c then rewriteRuns rewrite before (text ++ [c]) word
    else rewrite ⟨before, text, some c⟩ ++ c :: rewriteRuns rewrite (some c) [] word

def Run.besideDot (run : Run) : Bool := run.before == some '.' || run.after == some '.'

/- What the agent writes for a run. -/
def Run.byAgent (run : Run) : List Char :=
  if run.text.length ≥ 40 ∧ run.besideDot = false then redactOpaque isCode run.text
  else run.text

/- Characters that a match may begin behind or end before. -/
def isJoint (c : Char) : Bool := !barredBeside c

/- A run from behind its first joint, if a dot is before. -/
def Run.inner (run : Run) : List Char :=
  if run.before = some '.' then (run.text.dropWhile (!isJoint ·)).drop 1
  else run.text

/- And up to before its last joint, if a dot is after it. -/
def Run.core (run : Run) : List Char :=
  if run.after = some '.' then ((run.inner.reverse.dropWhile (!isJoint ·)).drop 1).reverse
  else run.inner

/- The agent, run by run. -/
theorem redactLoop_eq :
    ∀ out dotted text before,
      (∀ c ∈ text, charset c) →
      (dotted = [] → before ≠ some '.') →
      (dotted ≠ [] → before = some '.' ∧ '.' ∈ dotted) →
      redactLoop isCode (dotted ++ text) out word =
        out ++ dotted ++ rewriteRuns (Run.byAgent isCode) before text
          word := by
  have hFlush : ∀ dotted text before after, (∀ c ∈ text, charset c) →
      (dotted = [] → before ≠ some '.') → (dotted ≠ [] → before = some '.' ∧ '.' ∈ dotted) →
      after ≠ some '.' → flush isCode (dotted ++ text) = dotted ++
      Run.byAgent isCode ⟨before, text, after⟩ := by
    intro dotted text before after hText hPlain hDot hAfter
    by_cases hDotted : dotted = []
    · subst hDotted
      have hAll : text.all charset := List.all_eq_true.mpr hText
      have hBeside : Run.besideDot ⟨before, text, after⟩ = false := by
        simp [Run.besideDot, hPlain rfl, hAfter]
      rw [List.nil_append, flush, Run.byAgent, length_encode_opaque hText, hBeside, hAll]
      simp
    · rcases hDot hDotted with ⟨hBefore, hMem⟩
      have hNot : (dotted ++ text).all charset = false := by
        rw [List.all_eq_false]
        exact ⟨'.', List.mem_append_left _ hMem, by decide⟩
      rw [flush, Run.byAgent, hNot, hBefore]
      simp [Run.besideDot]
  induction word with
  | nil =>
    intro _ dotted text before hText hPlain hDot
    rw [redactLoop, rewriteRuns,
      hFlush dotted text before none hText hPlain hDot (by simp), List.append_assoc]
  | cons c _ ih =>
    intro out dotted text before hText hPlain hDot
    rw [redactLoop, rewriteRuns]
    by_cases hOpaque : charset c = true
    · rw [if_pos hOpaque, if_pos (by rw [hOpaque]; rfl), List.append_assoc]
      apply ih out dotted (text ++ [c]) before _ hPlain hDot
      intro d hd
      rcases List.mem_append.mp hd with hMem | hMem
      · exact hText d hMem
      · rw [List.mem_singleton.mp hMem]
        exact hOpaque
    · rw [if_neg hOpaque]
      by_cases hIsDot : c = '.'
      · subst hIsDot
        have hKept : Run.byAgent isCode ⟨before, text, some '.'⟩ = text := by
          simp [Run.byAgent, Run.besideDot]
        have hRest := ih out (dotted ++ text ++ ['.']) [] (some '.') (by simp) (by simp) (by simp)
        rw [if_pos (by decide), hKept]
        rw [List.append_nil] at hRest
        rw [hRest]
        simp
      · have hRest := ih (out ++ flush isCode (dotted ++ text) ++ [c]) [] [] (some c) (by simp)
          (by simp [hIsDot]) (by simp)
        rw [if_neg (by simp [hOpaque, hIsDot])]
        rw [List.append_nil] at hRest
        rw [hRest, hFlush dotted text before (some c) hText hPlain hDot (by simp [hIsDot])]
        simp

/- Beside a run, only a dot is barred. -/
theorem clear_of_not_dot {beside : Option Char} (hBeside : ∀ c ∈ beside, charset c = false)
    (hNotDot : beside ≠ some '.') : opaqueSecret.clear beside := by
  cases beside with
  | none => rfl
  | some c =>
    have hPlain := hBeside c rfl
    have hNot : c ≠ '.' := by
      rintro rfl
      exact hNotDot rfl
    unfold charset at hPlain
    rw [Bool.or_eq_false_iff] at hPlain
    have hSlash : c ≠ '/' := by
      rintro rfl
      exact absurd hPlain.2 (by decide)
    change (!barredBeside c) = true
    simp [barredBeside, hPlain.1, hSlash, hNot]

variable {run : Run}

/- How a run is cut before its core. -/
theorem Run.exists_front (hBefore : ∀ c ∈ run.before, charset c = false) :
    ∃ front, run.text = front ++ run.inner ∧
    (∀ a b, front = a ++ b → b ≠ [] → opaqueSecret.clear (RunPattern.lastItem run.before a) = false)
    ∧ (run.inner ≠ [] → opaqueSecret.clear (RunPattern.lastItem run.before front)) := by
  unfold Run.inner
  by_cases hDot : run.before = some '.'
  · rw [if_pos hDot]
    -- Up to the first joint, all that a match can follow is
    -- barred.
    have hBarred : ∀ plain : List Char, (∀ c ∈ plain, isJoint c = false) →
        opaqueSecret.clear (RunPattern.lastItem run.before plain) = false := by
      intro plain hPlain
      cases hLast : plain.getLast? with
      | none =>
        rw [RunPattern.lastItem, hLast, hDot]
        decide
      | some c =>
        rw [RunPattern.lastItem, hLast]
        exact hPlain c (List.mem_of_getLast? hLast)
    rcases Scan.cut_behind isJoint run.text with
      ⟨plain, hPlain, ⟨hAll, hNone⟩ | ⟨joint, hJoint, hText⟩⟩
    · refine ⟨plain, ?_, ?_, ?_⟩
      · rw [hNone, List.append_nil]
        exact hAll
      · intro _ _ hFront _
        apply hBarred
        intro _ hc
        apply hPlain
        rw [hFront]
        exact List.mem_append_left _ hc
      · intro hInner
        exact absurd hNone hInner
    · refine ⟨plain ++ [joint], ?_, ?_, ?_⟩
      · rw [List.append_assoc]
        exact hText
      · intro a b hFront hRest
        apply hBarred
        intro _ hc
        apply hPlain
        have hPre : a <+: plain := by
          rcases List.eq_nil_or_concat b with rfl | ⟨b, _, rfl⟩
          · exact absurd rfl hRest
          · rw [List.concat_eq_append, ← List.append_assoc] at hFront
            exact ⟨b, (List.append_inj_left' hFront rfl).symm⟩
        exact hPre.subset hc
      · intro _
        rw [RunPattern.lastItem, List.getLast?_concat]
        exact hJoint
  · rw [if_neg hDot]
    refine ⟨[], rfl, ?_, ?_⟩
    · intro _ _ hFront hRest
      rw [List.nil_eq_append_iff] at hFront
      exact absurd hFront.2 hRest
    · intro _
      exact clear_of_not_dot hBefore hDot

/- How it is cut behind its core. -/
theorem Run.exists_back (hAfter : ∀ c ∈ run.after, charset c = false)
    {rest : List Char} (hRest : rest.head? = run.after) : ∃ back, run.inner = run.core ++ back ∧
    (∀ n, 0 < n → n ≤ back.length → opaqueSecret.clear (back ++ rest)[n]? = false) ∧
    (run.core ≠ [] → opaqueSecret.clear (back ++ rest)[0]?) := by
  unfold Run.core
  by_cases hDot : run.after = some '.'
  · rw [if_pos hDot]
    have hEnd : rest[0]? = some '.' := by rw [← List.head?_eq_getElem?, hRest, hDot]
    -- Behind the last joint, all that can follow is barred.
    have hBarred : ∀ (plain : List Char) (n : Nat), (∀ c ∈ plain, isJoint c = false) →
        n ≤ plain.length → opaqueSecret.clear (plain ++ rest)[n]? = false := by
      intro plain n hPlain _
      by_cases hInside : n < plain.length
      · rw [List.getElem?_append_left hInside, List.getElem?_eq_getElem hInside]
        exact hPlain _ (List.getElem_mem hInside)
      · rw [List.getElem?_append_right (by omega), show n - plain.length = 0 by omega, hEnd]
        decide
    rcases Scan.cut_behind isJoint run.inner.reverse with
      ⟨plain, hPlain, ⟨hAll, hNone⟩ | ⟨joint, hJoint, hText⟩⟩
    · refine ⟨plain.reverse, ?_, ?_, ?_⟩
      · rw [hNone, ← hAll, List.reverse_reverse]
        rfl
      · intro n _ hn
        exact hBarred plain.reverse n (fun c hc => hPlain c (List.mem_reverse.mp hc)) hn
      · intro hCore
        rw [hNone] at hCore
        exact absurd rfl hCore
    · refine ⟨joint :: plain.reverse, ?_, ?_, ?_⟩
      · have hInner := congrArg List.reverse hText
        rw [List.reverse_reverse, List.reverse_append,
          List.reverse_cons, List.append_assoc] at hInner
        exact hInner
      · intro n _ hn
        cases n with
        | zero => omega
        | succ n =>
          rw [List.cons_append, List.getElem?_cons_succ]
          rw [List.length_cons] at hn
          exact hBarred plain.reverse n (fun c hc => hPlain c (List.mem_reverse.mp hc)) (by omega)
      · intro _
        exact hJoint
  · rw [if_neg hDot]
    refine ⟨[], (List.append_nil _).symm, ?_, ?_⟩
    · intro _ _ hn
      rw [List.length_nil] at hn
      omega
    · intro _
      rw [List.nil_append, ← List.head?_eq_getElem?, hRest]
      exact clear_of_not_dot hAfter hDot

/- What the Controller writes for a run. -/
def Run.byController (run : Run) : List Char :=
  if run.core.length < 40 then run.text
  else
    run.text.take (run.text.length - run.inner.length) ++ redactMatch isCode run.core ++
      run.inner.drop run.core.length

/- Nothing matches where a match would be too short. -/
theorem quiet_of_short {short back rest : List Char} (hText : ∀ c ∈ short ++ back, charset c)
    (hRest : ∀ c ∈ rest.head?, charset c = false) (hShort : short.length < 40)
    (hBack : ∀ n, 0 < n → n ≤ back.length → opaqueSecret.clear (back ++ rest)[n]? = false)
    {before : Option Char} {a b : List Char} (hSplit : short ++ back = a ++ b) :
    opaqueSecret.matchAt before (b ++ rest) = none := by
  have hRun : (b ++ rest).takeWhile opaqueSecret.body = b := by
    apply Scan.takeWhile_run
    · intro _ hc
      apply hText
      rw [hSplit]
      exact List.mem_append_right _ hc
    · exact hRest
  apply RunPattern.matchAt_eq_none
  intro n hLeast hn
  rw [hRun] at hn
  have hLeast : 40 ≤ n := hLeast
  have hLengths := congrArg List.length hSplit
  rw [List.length_append, List.length_append] at hLengths
  have hShift : (b ++ rest)[n]? = (back ++ rest)[a.length + n - short.length]? := by
    have hWhole : a ++ (b ++ rest) = short ++ (back ++ rest) := by
      rw [← List.append_assoc, ← hSplit, List.append_assoc]
    have hLeft : (a ++ (b ++ rest))[a.length + n]? = (b ++ rest)[n]? := by
      rw [List.getElem?_append_right (by omega), Nat.add_sub_cancel_left]
    rw [← hLeft, hWhole, List.getElem?_append_right (by omega)]
  rw [hShift]
  exact hBack _ (by omega) (by omega)

/- The Controller, on one run. -/
theorem substitute_run
    (run : Run)
    (hText : ∀ c ∈ run.text, charset c)
    (hBefore : ∀ c ∈ run.before, charset c = false)
    (hAfter : ∀ c ∈ run.after, charset c = false)
    {rest : List Char}
    (hRest : rest.head? = run.after) :
    opaqueSecret.substitute (redactMatch isCode) 0 run.before
      (run.text ++ rest) =
      run.byController isCode ++ opaqueSecret.substitute
        (redactMatch isCode) 0 (RunPattern.lastItem run.before run.text)
        rest := by
  rcases Run.exists_front hBefore with ⟨front, hFront, hQuiet, hClear⟩
  rcases Run.exists_back hAfter hRest with ⟨back, hBack, hLater, hEnd⟩
  have hEnds : ∀ c ∈ rest.head?, charset c = false := by
    rw [hRest]
    exact hAfter
  have hInner : ∀ c ∈ run.inner, charset c := by
    intro _ hc
    apply hText
    rw [hFront]
    exact List.mem_append_right _ hc
  have hStart : opaqueSecret.substitute (redactMatch isCode) 0 run.before (run.text ++ rest) =
      front ++ opaqueSecret.substitute (redactMatch isCode) 0 (RunPattern.lastItem run.before front)
      (run.inner ++ rest) := by
    rw [hFront, List.append_assoc]
    apply RunPattern.substitute_of_quiet
    intro a b hSplit hMore
    apply RunPattern.matchAt_of_barred
    exact hQuiet a b hSplit hMore
  have hLast : ∀ first second : List Char,
        RunPattern.lastItem
            (RunPattern.lastItem run.before first) second =
          RunPattern.lastItem run.before (first ++ second) := by
    intro _ _
    unfold RunPattern.lastItem
    rw [List.getLast?_append, Option.or_assoc]
  rw [hStart, Run.byController]
  by_cases hShort : run.core.length < 40
  · rw [if_pos hShort]
    have hKept : opaqueSecret.substitute (redactMatch isCode) 0
        (RunPattern.lastItem run.before front) (run.inner ++ rest) = run.inner ++
        opaqueSecret.substitute (redactMatch isCode) 0
        (RunPattern.lastItem (RunPattern.lastItem run.before front) run.inner) rest := by
      apply RunPattern.substitute_of_quiet
      intro _ _ hSplit _
      rw [hBack] at hSplit hInner
      exact quiet_of_short hInner hEnds hShort hLater hSplit
    rw [hKept, hLast, ← hFront, ← List.append_assoc, ← hFront]
  · rw [if_neg hShort]
    have hCore : run.core ≠ [] := by
      intro hNil
      rw [hNil] at hShort
      exact hShort (by decide)
    have hNonempty : run.inner ≠ [] := by
      rw [hBack]
      simp [hCore]
    have hMatch : opaqueSecret.matchAt (RunPattern.lastItem run.before front)
        (run.core ++ (back ++ rest)) = some run.core.length := by
      have hRun : (run.core ++ (back ++ rest)).takeWhile opaqueSecret.body = run.core ++ back := by
        rw [← List.append_assoc, ← hBack]
        exact Scan.takeWhile_run hInner hEnds
      apply RunPattern.matchAt_eq_some
      · exact hClear hNonempty
      · exact Nat.le_of_not_lt hShort
      · rw [hRun, List.length_append]
        omega
      · rw [List.getElem?_append_right (Nat.le_refl _), Nat.sub_self]
        exact hEnd hCore
      · intro _ _ hm
        rw [hRun, List.length_append] at hm
        rw [List.getElem?_append_right (by omega)]
        exact hLater _ (by omega) (by omega)
    have hTail : ∀ before, opaqueSecret.substitute (redactMatch isCode) 0 before (back ++ rest) =
        back ++ opaqueSecret.substitute (redactMatch isCode) 0 (RunPattern.lastItem before back)
        rest := by
      intro _
      apply RunPattern.substitute_of_quiet
      intro a b hSplit _
      have hAlone : [] ++ back = a ++ b := hSplit
      rw [hBack] at hInner
      apply quiet_of_short _ hEnds (by decide) hLater hAlone
      intro c hc
      exact hInner c (List.mem_append_right _ hc)
    have hTake : run.text.take (run.text.length - run.inner.length) = front := by
      rw [hFront, List.length_append, Nat.add_sub_cancel, List.take_left]
    have hDrop : run.inner.drop run.core.length = back := by rw [hBack, List.drop_left]
    rw [hTake, hDrop, hBack, List.append_assoc, RunPattern.substitute_of_match _ _ hCore hMatch,
        hTail, hLast, hLast, List.append_assoc, ← hBack, ← hFront]
    simp only [List.append_assoc]

/- The Controller, run by run. -/
theorem substitute_eq : ∀ before, (∀ c ∈ before, charset c = false) →
    opaqueSecret.substitute (redactMatch isCode) 0 before word =
    rewriteRuns (Run.byController isCode) before [] word := by
  have hRead : ∀ (rewrite : Run → List Char) before text run rest, (∀ c ∈ run, charset c) →
      rewriteRuns rewrite before text (run ++ rest) =
      rewriteRuns rewrite before (text ++ run) rest := by
    intro _ _ text run _ hRun
    induction run generalizing text with
    | nil => rw [List.nil_append, List.append_nil]
    | cons c _ ih =>
      rw [List.cons_append, rewriteRuns, if_pos (hRun c List.mem_cons_self),
        ih (text ++ [c]) (fun d hd => hRun d (List.mem_cons_of_mem _ hd)), List.append_assoc]
      rfl
  -- A word is shorter behind its first run.
  induction hLength : word.length using Nat.strong_induction_on generalizing word with
  | _ length ih =>
    intro before hBefore
    rcases Scan.exists_run charset word with ⟨run, rest, rfl, hRun, hRest⟩
    rw [hRead _ before [] run rest hRun, List.nil_append]
    have hOne := substitute_run isCode ⟨before, run, rest.head?⟩ hRun hBefore hRest rfl
    simp only at hOne
    rw [hOne]
    cases rest with
    | nil =>
      rw [rewriteRuns]
      simp [RunPattern.substitute]
    | cons c rest =>
      have hPlain : charset c = false := hRest c rfl
      have hNone : ∀ other, opaqueSecret.matchAt other (c :: rest) = none := by
        intro _
        apply RunPattern.matchAt_eq_none
        intro n hLeast hn
        rw [List.takeWhile_cons, show opaqueSecret.body c = false from hPlain] at hn
        have hNothing : n ≤ 0 := hn
        have hLong : 40 ≤ n := hLeast
        omega
      have hNext := ih rest.length (by
          rw [← hLength, List.length_append, List.length_cons]
          omega) rest rfl (some c) (by
          intro _ hd
          rw [← Option.mem_some_iff.mp hd]
          exact hPlain)
      rw [RunPattern.substitute, hNone, rewriteRuns, hPlain]
      simp only [List.head?_cons, hNext]
      rfl

----
-- Agreement
----

/- A word has as many brackets as its redactions add. -/
theorem bracket_notMem {text : List Char} (hText : ∀ c ∈ text, charset c) :
    text.count '[' = 0 := by
  rw [List.count_eq_zero]
  intro hMem
  exact absurd (hText '[' hMem) (by decide)

theorem redactOpaque_cases :
    (isRefusalField isCode token ∧ redactOpaque isCode token = token) ∨
    (isRefusalField isCode token = false ∧ redactOpaque isCode token = opaqueMarker) := by
  unfold redactOpaque
  cases isRefusalField isCode token with
  | true => exact Or.inl ⟨rfl, rfl⟩
  | false => exact Or.inr ⟨rfl, rfl⟩

/-
  A run that both would write alike. Beside a dot, its core must be too short to match or a field
  that is kept.
-/
def Run.Alike (run : Run) : Prop :=
  run.besideDot = true → run.core.length < 40 ∨ isRefusalField isCode run.core = true

/- Cutting a run around its core loses nothing. -/
theorem Run.cut (hBefore : ∀ c ∈ run.before, charset c = false)
    (hAfter : ∀ c ∈ run.after, charset c = false) :
    run.text.take (run.text.length - run.inner.length) ++ run.core ++
    run.inner.drop run.core.length = run.text := by
  rcases Run.exists_front hBefore with ⟨front, hFront, _⟩
  have hRest : run.after.toList.head? = run.after := by cases run.after <;> rfl
  rcases Run.exists_back hAfter hRest with ⟨back, hBack, _⟩
  have hTake : run.text.take (run.text.length - run.inner.length) = front := by
    rw [hFront, List.length_append, Nat.add_sub_cancel, List.take_left]
  have hDrop : run.inner.drop run.core.length = back := by rw [hBack, List.drop_left]
  rw [hTake, hDrop, List.append_assoc, ← hBack, ← hFront]

/- One run: the same text, or a bracket more. -/
theorem Run.alike_or_more (run : Run) (hText : ∀ c ∈ run.text, charset c)
    (hBefore : ∀ c ∈ run.before, charset c = false) (hAfter : ∀ c ∈ run.after, charset c = false) :
    (run.Alike isCode ∧ run.byAgent isCode = run.byController isCode) ∨
    (¬ run.Alike isCode ∧ (run.byAgent isCode).count '[' < (run.byController isCode).count '[') :=
      by
  unfold Run.byAgent Run.byController
  rw [redactMatch_eq]
  cases hDot : run.besideDot with
  | false =>
    have hDots := hDot
    rw [Run.besideDot, Bool.or_eq_false_iff, beq_eq_false_iff_ne, beq_eq_false_iff_ne] at hDots
    have hInner : run.inner = run.text := if_neg hDots.1
    have hCore : run.core = run.text := by rw [Run.core, if_neg hDots.2, hInner]
    left
    refine ⟨?_, ?_⟩
    · intro hBeside
      rw [hDot] at hBeside
      cases hBeside
    · rw [hCore, hInner]
      by_cases hShort : run.text.length < 40
      · rw [if_pos hShort, if_neg (by omega)]
      · rw [if_neg hShort, if_pos ⟨by omega, rfl⟩]
        simp
  | true =>
    rw [if_neg (by simp)]
    by_cases hShort : run.core.length < 40
    · left
      rw [if_pos hShort]
      exact ⟨fun _ => Or.inl hShort, rfl⟩
    · rw [if_neg hShort]
      have hCut := Run.cut hBefore hAfter
      rcases redactOpaque_cases isCode run.core with ⟨hField, hSame⟩ | ⟨hNot, hMarked⟩
      · left
        rw [hSame, hCut]
        exact ⟨fun _ => Or.inr hField, rfl⟩
      · right
        refine ⟨?_, ?_⟩
        · intro hAlike
          rcases hAlike hDot with hLess | hField
          · exact hShort hLess
          · rw [hNot] at hField
            cases hField
        · have hOne : opaqueMarker.count '[' = 1 := by
            decide
          rw [bracket_notMem hText, hMarked, List.count_append, List.count_append, hOne]
          omega

/- Whole words, from the run that is being read. -/
theorem rewrite_alike_or_more : ∀ before text,
      (∀ c ∈ text, charset c) → (∀ c ∈ before, charset c = false) →
        ((∀ run ∈ runsFrom before text word, run.Alike isCode) ∧
            rewriteRuns (Run.byAgent isCode) before text word =
              rewriteRuns (Run.byController isCode) before text word) ∨
          ((¬ ∀ run ∈ runsFrom before text word, run.Alike isCode) ∧
            (rewriteRuns (Run.byAgent isCode) before text word).count '[' <
              (rewriteRuns (Run.byController isCode) before text word).count '[') := by
  induction word with
  | nil =>
    intro before text hText hBefore
    rw [runsFrom, rewriteRuns, rewriteRuns]
    have hOne := Run.alike_or_more isCode ⟨before, text, none⟩ hText hBefore (by simp)
    simpa using hOne
  | cons c _ ih =>
    intro before text hText hBefore
    rw [runsFrom, rewriteRuns, rewriteRuns]
    by_cases hOpaque : charset c = true
    · rw [if_pos hOpaque, if_pos hOpaque, if_pos hOpaque]
      apply ih before (text ++ [c]) _ hBefore
      intro d hd
      rcases List.mem_append.mp hd with hMem | hMem
      · exact hText d hMem
      · rw [List.mem_singleton.mp hMem]
        exact hOpaque
    · rw [if_neg hOpaque, if_neg hOpaque, if_neg hOpaque]
      have hPlain : ∀ d ∈ some c, charset d = false := by
        intro _ hd
        rw [← Option.mem_some_iff.mp hd]
        exact Bool.eq_false_iff.mpr hOpaque
      have hOne := Run.alike_or_more isCode ⟨before, text, some c⟩ hText hBefore hPlain
      have hMore := ih (some c) [] (by simp) hPlain
      simp only [List.forall_mem_cons, List.count_append, List.count_cons]
      rcases hOne with ⟨hAlike, hSame⟩ | ⟨hNot, hLess⟩
      · rcases hMore with ⟨hAll, hRest⟩ | ⟨hSome, _⟩
        · left
          rw [hSame, hRest]
          exact ⟨⟨hAlike, hAll⟩, rfl⟩
        · right
          rw [hSame]
          exact ⟨fun hBoth => hSome hBoth.2, by omega⟩
      · right
        refine ⟨fun hBoth => hNot hBoth.1, ?_⟩
        rcases hMore with ⟨_, hRest⟩ | ⟨_, _⟩
        · rw [hRest]
          omega
        · omega

theorem redactions_alike_or_differ :
    ((∀ run ∈ opaqueRuns word, run.Alike isCode) ∧
      redactOpaqueRuns isCode word = substituteOpaque isCode word) ∨
    ((¬ ∀ run ∈ opaqueRuns word, run.Alike isCode) ∧
      redactOpaqueRuns isCode word ≠ substituteOpaque isCode word) := by
  have hAgent : redactOpaqueRuns isCode word = rewriteRuns (Run.byAgent isCode) none [] word :=
    redactLoop_eq isCode word [] [] [] none (by simp) (by simp) (by simp)
  have hController : substituteOpaque isCode word = rewriteRuns (Run.byController isCode) none []
      word := substitute_eq isCode word none (by simp)
  rw [hAgent, hController]
  rcases rewrite_alike_or_more isCode word none []
    (by simp) (by simp) with ⟨hAll, hSame⟩ | ⟨hNot, hLess⟩
  · exact Or.inl ⟨hAll, hSame⟩
  · refine Or.inr ⟨hNot, ?_⟩
    intro hSame
    rw [hSame] at hLess
    exact absurd hLess (Nat.lt_irrefl _)

/-
  The agent and the Controller redact a word alike exactly if no run of it beside a dot has a core
  that the Controller redacts.
-/
theorem redactions_agree_iff
    (isCode : List Char → Bool)
    (word : List Char) :
    redactOpaqueRuns isCode word = substituteOpaque isCode word ↔
      ∀ run ∈ opaqueRuns word,
        run.besideDot = true →
        run.core.length < 40 ∨
        isRefusalField isCode run.core = true := by
  rcases redactions_alike_or_differ isCode word with ⟨hAll, hSame⟩ | ⟨hNot, hDiffer⟩
  · exact ⟨fun _ => hAll, fun _ => hSame⟩
  · constructor
    · intro hSame
      exact absurd hSame hDiffer
    · intro hAll
      exact absurd hAll hNot

/- A path of a Python frame, as a traceback names it. -/
def framePath : List Char := ("/usr/lib/python3.12/site-packages/vllm/model_executor/" ++
    "layers/fused_moe/fused_marlin_moe.py").toList

/- The agent keeps it, and the Controller cuts a piece out. -/
theorem framePath_is_redacted :
    framePath.all (fun c => 33 ≤ c.toNat && c.toNat ≤ 126) = true ∧
    framePath.head? = some '/' ∧
    redactOpaqueRuns (fun _ => false) framePath = framePath ∧
    substituteOpaque (fun _ => false) framePath =
      ("/usr/lib/python3.12/site-"
         ++ "[redacted opaque value]_moe.py").toList ∧
    redactOpaqueRuns (fun _ => false) framePath ≠
      substituteOpaque (fun _ => false) framePath := by
  refine ⟨?_, ?_, ?_, ?_, ?_⟩ <;> decide +kernel

end VonkForge.Evidence
