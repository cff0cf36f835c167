import VonkForge.Egress.Request
import VonkForge.Foundations.Utf8

/-
  What is forwarded is one request.

  The checks of the headers are checks of bytes, so a header that is kept brings no line end of its
  own. The path is not checked, a header's name may be empty, and a `Host` without a port is taken
  for any port: what is forwarded is one well-formed request exactly if the first line holds no CR
  and no LF, none of the lines starts with a colon, and a `Host` without a port comes with a target
  on port 80.

  Main declarations:
    * `message`
    * `message_inj`
    * `forwardHeaders_spec`
    * `parseRequest_allowed`
    * `forwards_one_request_iff`
-/

----
-- Messages
----

namespace VonkForge.Egress

open Text Fallible

variable (lines : List (List Char))

/- Lines that end with a CRLF, and an empty line. -/
def message : List UInt8 := lines.flatMap (fun line => encode line ++ crlf) ++ crlf

def Header.line (header : Header) : List Char := header.name ++ ':' :: header.value

/- A line of its own: not empty, and no line end inside. -/
structure Solid (line : List Char) : Prop where
  ne_nil : line ≠ []
  unbroken : ∀ byte ∈ encode line, byte ≠ 13 ∧ byte ≠ 10

/- Headers between one end of a connection and the other. -/
def hopByHopKeys : List (List Char) :=
  ["connection".toList, "proxy-connection".toList, "keep-alive".toList,
    "te".toList, "trailer".toList, "transfer-encoding".toList, "upgrade".toList,
    "proxy-authenticate".toList, "proxy-authorization".toList]

def forwardingKeys : List (List Char) :=
  ["forwarded".toList, "x-forwarded-for".toList, "x-forwarded-host".toList,
    "x-forwarded-proto".toList]

def firstLine (header : List UInt8) : List Char :=
  ((decode header).bind (fun text => (crlfLines text).head?)).getD []

/- The lines between the first and the empty one. -/
def headerLines (header : List UInt8) : List (List Char) :=
  ((decode header).map (fun text => (crlfLines text).tail.takeWhile (· ≠ []))).getD []

/- A `Connection` header among the lines nominates a key. -/
def Nominated (key : List Char) : Prop :=
  ∃ line ∈ lines, ∃ name value, line = name ++ ':' :: value ∧ ':' ∉ name ∧
    lower name = "connection".toList ∧ ∃ piece ∈ value.splitOn ',', lower (trim piece) = key

/- The host, in any case, with the port; alone it names the port of HTTP. -/
def NamesHost (host : List Char) (port : Nat) (value : List Char) : Prop :=
  ∃ spelled, lower spelled = host ∧
    ((value = spelled ∧ port = 80) ∨
      ∃ digits, value = spelled ++ ':' :: digits ∧ parseU16 digits = some port)

/- A `Host` line that names no port. -/
def PortlessHost (line : List Char) : Prop :=
  ∃ name value, line = name ++ ':' :: value ∧ ':' ∉ name ∧ lower name = "host".toList ∧
    ':' ∉ trim value

/- What a first line's target has between `http://` and the path. -/
def targetAuthority (first : List Char) : List Char :=
  ((((first.splitOn ' ')[1]?).bind fun target => target.dropPrefix? "http://".toList).getD
    []).takeWhile (· ≠ '/')

/- Port 80, or no port at all. -/
def NamesDefaultPort (authority : List Char) : Prop :=
  ∀ host digits, splitLast ':' authority = some (host, digits) → parseU16 digits = some 80

theorem forwarded_eq_message (method path : List Char) (headers : List Header) :
    forwarded method path headers =
    message (requestLine method path :: headers.map Header.line ++ [closing]) := by
  have hHeaders : headers.flatMap Header.bytes =
      (headers.map Header.line).flatMap (fun line => encode line ++ crlf) := by
    rw [List.flatMap_map]
    congr 1
    funext header
    rw [Header.bytes, Header.line, encode_append, encode_cons ':' header.value]
    simp only [List.append_assoc]
  rw [forwarded, hHeaders, message]
  simp only [List.cons_append, List.flatMap_cons,
    List.flatMap_append, List.flatMap_nil, List.append_nil, List.append_assoc]

/- The text of which a message is the bytes. -/
def joined : List Char := lines.flatMap (fun line => line ++ ['\r', '\n']) ++ ['\r', '\n']

theorem message_eq_encode : message lines = encode (joined lines) := by
  have hEnd : encode ['\r', '\n'] = crlf := by decide +kernel
  rw [message, joined, encode_append, hEnd]
  congr 1
  rw [encode, List.flatMap_assoc]
  congr 1
  funext line
  change _ = encode (line ++ ['\r', '\n'])
  rw [encode_append, hEnd]

/- A line that no reader of lines takes apart. -/
structure Whole (line : List Char) : Prop where
  pairs : pairFree line
  ending : line.getLast? ≠ some '\r'

theorem unbroken_iff {line : List Char} :
    (∀ byte ∈ encode line, byte ≠ 13 ∧ byte ≠ 10) ↔
      ∀ letter ∈ line, letter ≠ '\r' ∧ letter ≠ '\n' := by
  constructor
  · intro hBytes letter hLetter
    constructor
    · rintro rfl
      exact (hBytes 13 (List.mem_flatMap.mpr ⟨_, hLetter, by decide +kernel⟩)).1 rfl
    · rintro rfl
      exact (hBytes 10 (List.mem_flatMap.mpr ⟨_, hLetter, by decide +kernel⟩)).2 rfl
  · intro hLetters byte hByte
    constructor
    · rintro rfl
      exact (hLetters '\r' (mem_encode_ascii (by decide) hByte)).1 rfl
    · rintro rfl
      exact (hLetters '\n' (mem_encode_ascii (by decide) hByte)).2 rfl

theorem Solid.whole {line : List Char} (hLine : Solid line) : Whole line := by
  have hReturn : '\r' ∉ line := fun hMem => (unbroken_iff.mp hLine.unbroken _ hMem).1 rfl
  exact ⟨pairFree_of_notMem hReturn, fun hLast => hReturn (List.mem_of_getLast? hLast)⟩

theorem crlfLines_joined (hLines : ∀ line ∈ lines, Whole line) :
    crlfLines (joined lines) = lines ++ [[], []] := by
  induction lines with
  | nil => rfl
  | cons line lines ih =>
    have hLine := hLines line List.mem_cons_self
    have hJoined : joined (line :: lines) = line ++ '\r' :: '\n' :: joined lines := by
      simp [joined]
    rw [hJoined, crlfLines_append hLine.pairs hLine.ending,
      ih fun other hOther => hLines other (List.mem_cons_of_mem _ hOther)]
    rfl

/- A message is that of its lines alone. -/
theorem message_inj
    {lines others : List (List Char)}
    (hLines : ∀ line ∈ lines, Whole line)
    (hOthers : ∀ line ∈ others, Whole line)
    (hSame : message lines = message others) :
    lines = others := by
  rw [message_eq_encode, message_eq_encode] at hSame
  have hCut := congrArg crlfLines (encode_injective hSame)
  rw [crlfLines_joined lines hLines, crlfLines_joined others hOthers] at hCut
  exact List.append_cancel_right hCut

----
-- The First Line
----

theorem splitRequestLine_spec {first method target : List Char}
    (hSplit : splitRequestLine first = .ok (method, target)) :
    first.splitOn ' ' = [method, target, "HTTP/1.1".toList] ∧
      first = requestLine method target ∧ ' ' ∉ target := by
  unfold splitRequestLine at hSplit
  split at hSplit
  · rename_i start middle version hPieces
    split at hSplit
    · rename_i hVersion
      cases hSplit
      have hJoined : List.intercalate [' '] (first.splitOn ' ') = first :=
        List.intercalate_splitOn ' '
      rw [hPieces, hVersion] at hJoined
      refine ⟨by rw [hPieces, hVersion], ?_, ?_⟩
      · rw [← hJoined]
        simp [requestLine, List.intercalate]
      · apply not_mem_of_mem_splitOn ' ' first
        simp [hPieces]
    · cases hSplit
  · cases hSplit

theorem authorityChecked_spec {parsers : Parsers} {spelled host : List Char} {default port : Nat}
    (hChecked : authorityChecked parsers spelled default = .ok (host, port)) :
    host = lower spelled ∧ port = default ∧ validHostname parsers (lower spelled) = true := by
  unfold authorityChecked at hChecked
  simp only at hChecked
  split at hChecked
  · cases hChecked
  · rename_i hValid
    cases hChecked
    exact ⟨rfl, rfl, by simpa using (not_or.mp hValid).1⟩

/- Letters that no part of a host name has, in any case. -/
def foreign (letter : Char) : Bool :=
  letter.toLower = letter ∧ letter ≠ '.' ∧
    (letter.isLower ∨ letter.isDigit ∨ letter = '-') = false

theorem notMem_of_validHostname {parsers : Parsers} {spelled : List Char} {letter : Char}
    (hValid : validHostname parsers (lower spelled)) (hForeign : foreign letter) :
    letter ∉ spelled := by
  simp only [foreign, decide_eq_true_eq, eq_iff_iff, Bool.false_eq_true, iff_false] at hForeign
  unfold validHostname at hValid
  split at hValid
  · cases hValid
  · simp only [decide_eq_true_eq, List.all_eq_true] at hValid
    intro hMem
    have hLower : letter ∈ lower spelled := by
      rw [← hForeign.1]
      exact List.mem_map_of_mem hMem
    rcases mem_splitOn_of_mem '.' (lower spelled) hLower with hDot | ⟨label, hLabel, hIn⟩
    · exact hForeign.2.1 hDot
    · have hLetters := hValid.1 label hLabel
      simp only [validLabel, decide_eq_true_eq, List.all_eq_true] at hLetters
      exact hForeign.2.2 (hLetters.2.2.2.2 letter hIn)

variable (parsers : Parsers)

/- A host alone, or a host and a port. -/
theorem authorityWithDefault_spec (value : List Char) (default : Nat) :
    Returns
      (fun found => ∃ spelled, lower spelled = found.1 ∧
        validHostname parsers (lower spelled) = true ∧
        ((value = spelled ∧ found.2 = default) ∨
          ∃ digits, value = spelled ++ ':' :: digits ∧ parseU16 digits = some found.2))
      (authorityWithDefault parsers value default) := by
  have hWhole : Returns
      (fun found => ∃ spelled, lower spelled = found.1 ∧
        validHostname parsers (lower spelled) = true ∧
        ((value = spelled ∧ found.2 = default) ∨
          ∃ digits, value = spelled ++ ':' :: digits ∧ parseU16 digits = some found.2))
      (authorityChecked parsers value default) := by
    rintro ⟨_, _⟩ hChecked
    rcases authorityChecked_spec hChecked with ⟨rfl, rfl, hValid⟩
    exact ⟨value, rfl, hValid, Or.inl ⟨rfl, rfl⟩⟩
  unfold authorityWithDefault
  split
  · rename_i before after hSplit
    split
    · exact hWhole
    · apply Returns.orFail
      intro _ hNumber
      rintro ⟨_, _⟩ hChecked
      rcases authorityChecked_spec hChecked with ⟨rfl, rfl, hValid⟩
      exact ⟨before, rfl, hValid, Or.inr ⟨after, (splitLast_spec hSplit).1, hNumber⟩⟩
  · exact hWhole

theorem notMem_of_parseU16 {digits : List Char} {port : Nat} (hPort : parseU16 digits = some port)
    {letter : Char} (hLetter : letter.isDigit = false ∧ letter ≠ '+') : letter ∉ digits := by
  have hDigits {text : List Char} (hRead : (digitsOf text).filter (· < 65536) = some port) :
      letter ∉ text := by
    intro hMem
    have hSome := (Option.filter_eq_some_iff.mp hRead).1
    unfold digitsOf at hSome
    split at hSome
    · rename_i hAll
      have hDigit := List.all_eq_true.mp hAll.2 letter hMem
      rw [hLetter.1] at hDigit
      cases hDigit
    · cases hSome
  unfold parseU16 at hPort
  simp only at hPort
  split at hPort
  · rw [List.mem_cons, not_or]
    exact ⟨hLetter.2, hDigits hPort⟩
  · exact hDigits hPort

/- How a target is taken apart. -/
structure Target (parsers : Parsers) (target : List Char) (host : List Char) (port : Nat)
    (path rest : List Char) : Prop where
  target_eq : target = "http://".toList ++ rest
  authority : authorityWithDefault parsers (rest.takeWhile (· ≠ '/')) 80 = .ok (host, port)
  path_eq : path = if '/' ∈ rest then rest.dropWhile (· ≠ '/') else ['/']

theorem absoluteHttp_spec (target : List Char) :
    Returns (fun found => ∃ rest, Target parsers target found.1 found.2.1 found.2.2 rest)
      (absoluteHttp parsers target) := by
  unfold absoluteHttp
  apply Returns.orFail
  intro rest hRest
  apply Returns.require
  intro _
  refine Returns.bind fun found hFound => ?_
  apply Returns.require
  intro _
  apply Returns.ok
  rcases List.dropPrefix?_eq_some_iff.mp hRest with ⟨start, rfl, hStart⟩
  exact ⟨rest, by rw [eq_of_beq hStart], hFound, rfl⟩

section Targets

variable {parsers : Parsers} {target host path rest : List Char} {port : Nat}

/- The path is part of the target, or a slash. -/
theorem Target.path_from (hTarget : Target parsers target host port path rest) :
    path <:+: target ∨ path = ['/'] := by
  rw [hTarget.path_eq]
  split
  · left
    rw [hTarget.target_eq]
    exact (List.dropWhile_suffix _).isInfix.trans (List.suffix_append _ _).isInfix
  · right
    rfl

/- No line end stands before the path. -/
theorem Target.notMem_authority (hTarget : Target parsers target host port path rest)
    {letter : Char} (hForeign : foreign letter) (hNumber : letter ≠ '+' ∧ letter ≠ ':') :
    letter ∉ rest.takeWhile (· ≠ '/') := by
  have hDigit : letter.isDigit = false := by
    simp only [foreign, decide_eq_true_eq, eq_iff_iff, Bool.false_eq_true, iff_false, not_or]
      at hForeign
    simpa using hForeign.2.2.2.1
  rcases authorityWithDefault_spec parsers _ _ _ hTarget.authority with
    ⟨spelled, _, hValid, hAlone | ⟨digits, hBoth, hPort⟩⟩
  · rw [hAlone.1]
    exact notMem_of_validHostname hValid hForeign
  · rw [hBoth, List.mem_append, List.mem_cons, not_or, not_or]
    exact ⟨notMem_of_validHostname hValid hForeign, hNumber.2,
      notMem_of_parseU16 hPort ⟨hDigit, hNumber.1⟩⟩

/- The port is that of HTTP exactly if the target names no other. -/
theorem Target.port_eq_iff (hTarget : Target parsers target host port path rest) :
    port = 80 ↔ NamesDefaultPort (rest.takeWhile (· ≠ '/')) := by
  rcases authorityWithDefault_spec parsers _ _ _ hTarget.authority with
    ⟨spelled, _, hValid, hAlone | ⟨digits, hBoth, hPort⟩⟩
  · refine iff_of_true hAlone.2 fun before after hSplit => ?_
    have hColon : ':' ∈ rest.takeWhile (· ≠ '/') := by
      rw [(splitLast_spec hSplit).1]
      simp
    rw [hAlone.1] at hColon
    exact absurd hColon (notMem_of_validHostname hValid (by decide))
  · have hColon : ':' ∉ digits := notMem_of_parseU16 hPort (by decide)
    have hSplit := splitLast_append spelled hColon
    rw [← hBoth] at hSplit
    constructor
    · rintro rfl before after hOther
      rw [hSplit] at hOther
      cases hOther
      exact hPort
    · intro hDefault
      rw [hDefault spelled digits hSplit] at hPort
      exact (Option.some.inj hPort).symm

end Targets

----
-- The Headers
----

/- Every piece of a list of tokens is nominated, and none is empty. -/
theorem nominatedTokens_spec (pieces : List (List Char)) :
    Returns (fun tokens => (∀ piece ∈ pieces, lower (trim piece) ∈ tokens) ∧ [] ∉ tokens)
    (nominatedTokens pieces) := by
  induction pieces with
  | nil =>
    apply Returns.ok
    simp
  | cons _ _ ih =>
    unfold nominatedTokens
    apply Returns.require
    intro hToken
    refine Returns.bind fun tokens hTokens => ?_
    apply Returns.ok
    rcases ih tokens hTokens with ⟨hPieces, hSome⟩
    simp only [decide_eq_true_eq] at hToken
    constructor
    · intro piece hPiece
      rcases List.mem_cons.mp hPiece with rfl | hRest
      · exact List.mem_cons_self
      · exact List.mem_cons_of_mem _ (hPieces piece hRest)
    · rw [List.mem_cons, not_or]
      exact ⟨fun hNone => hToken.1 (List.map_eq_nil_iff.mp hNone.symm), hSome⟩

/- What a line is read as. -/
structure ReadFrom (line : List Char) (header : Header) (tokens : List (List Char)) : Prop where
  line_eq : line = header.line
  colon : ':' ∉ header.name
  name : (encode header.name).all nameByte = true
  value : (encode header.value).any controlByte = false
  key : header.key ≠ "proxy-authorization".toList ∧ header.key ≠ "transfer-encoding".toList
  named : [] ∉ tokens
  nominates : header.key = "connection".toList → ∀ piece ∈ header.value.splitOn ',',
    lower (trim piece) ∈ tokens

theorem readHeader_spec (line : List Char) :
    Returns (fun found => ReadFrom line found.1 found.2) (readHeader line) := by
  unfold readHeader
  apply Returns.orFail
  rintro ⟨_, _⟩ hSplit
  apply Returns.require
  intro hBytes
  apply Returns.require
  intro hAuthorization
  apply Returns.require
  intro hEncoding
  refine Returns.bind fun tokens hTokens => ?_
  apply Returns.require
  intro _
  apply Returns.ok
  simp only [decide_eq_true_eq, Bool.not_eq_true'] at hBytes hAuthorization hEncoding
  refine ⟨(splitOnce_spec hSplit).1, (splitOnce_spec hSplit).2, hBytes.1, hBytes.2,
    ⟨hAuthorization, hEncoding⟩, ?_, ?_⟩
  · unfold nominatedBy at hTokens
    split at hTokens
    · exact (nominatedTokens_spec _ tokens hTokens).2
    · cases hTokens
      exact List.not_mem_nil
  · intro hKey
    rw [nominatedBy, if_pos hKey] at hTokens
    exact (nominatedTokens_spec _ tokens hTokens).1

/- The lines up to the empty one, read one by one. -/
theorem readHeaders_spec :
    Returns
      (fun found =>
        (∀ header ∈ found.1, ∃ line ∈ lines.takeWhile (· ≠ []), ∃ tokens,
          ReadFrom line header tokens) ∧
        (∀ line ∈ lines.takeWhile (· ≠ []), ∃ header ∈ found.1, ∃ tokens,
          ReadFrom line header tokens ∧ ∀ token ∈ tokens, token ∈ found.2) ∧
        [] ∉ found.2)
      (readHeaders lines) := by
  induction lines with
  | nil =>
    apply Returns.ok
    simp
  | cons line lines ih =>
    unfold readHeaders
    split
    · rename_i hEmpty
      apply Returns.ok
      simp [hEmpty]
    · rename_i hLine
      have hTaken : (line :: lines).takeWhile (· ≠ []) = line :: lines.takeWhile (· ≠ []) := by
        simp [hLine]
      refine Returns.bind fun found hFound => ?_
      refine Returns.bind fun others hOthers => ?_
      apply Returns.ok
      rcases ih others hOthers with ⟨hHeaders, hLines, hSome⟩
      have hRead := readHeader_spec line found hFound
      rw [hTaken]
      refine ⟨?_, ?_, ?_⟩
      · intro header hHeader
        rcases List.mem_cons.mp hHeader with rfl | hRest
        · exact ⟨line, List.mem_cons_self, found.2, hRead⟩
        · rcases hHeaders header hRest with ⟨other, hOther, hTokens⟩
          exact ⟨other, List.mem_cons_of_mem _ hOther, hTokens⟩
      · intro other hOther
        rcases List.mem_cons.mp hOther with rfl | hRest
        · exact ⟨found.1, List.mem_cons_self, found.2, hRead, fun token => List.mem_append_left _⟩
        · rcases hLines other hRest with ⟨header, hMem, tokens, hOtherRead, hTokens⟩
          exact ⟨header, List.mem_cons_of_mem _ hMem, tokens, hOtherRead, fun token hToken =>
              List.mem_append_right _ (hTokens token hToken)⟩
      · rw [List.mem_append, not_or]
        exact ⟨hRead.named, hSome⟩

/- An accepted `Host` names the port, or is without one. -/
theorem checkHost_spec
    {parsers : Parsers}
    {host : List Char}
    {port : Nat}
    {header : Header}
    {result : Unit}
    (hKey : header.key = "host".toList)
    (hChecked : checkHost parsers host port header = .ok result)
    (hPort : ':' ∉ trim header.value → port = 80) :
    NamesHost host port (trim header.value) := by
  rw [checkHost, if_pos hKey] at hChecked
  revert hChecked
  refine Returns.bind (Q := fun _ => NamesHost host port (trim header.value))
    (fun found hFound => ?_) result
  rcases authorityWithDefault_spec parsers (trim header.value) port found hFound with
    ⟨spelled, hHost, hValid, hNames⟩
  intro _ hSame
  have hBoth := require_eq_ok hSame
  simp only [decide_eq_true_eq] at hBoth
  refine ⟨spelled, hHost.trans hBoth.1, ?_⟩
  rcases hNames with hAlone | hNumber
  · refine Or.inl ⟨hAlone.1, hPort ?_⟩
    rw [hAlone.1]
    exact notMem_of_validHostname hValid (by decide)
  · right
    rw [← hBoth.2]
    exact hNumber

/- What is kept was read, not dropped, and checked, and nothing else is left out. -/
theorem forwardHeaders_spec
    (host : List Char)
    (port : Nat)
    (nominated : List (List Char))
    (headers : List Header) :
    Returns
      (fun kept =>
         ∀ header,
           header ∈ kept ↔
             header ∈ headers ∧ isDropped nominated header = false)
      (forwardHeaders parsers host port nominated headers) ∧
    Returns
      (fun kept =>
         ∀ header ∈ kept, checkHost parsers host port header = .ok ())
      (forwardHeaders parsers host port nominated headers) := by
  induction headers with
  | nil =>
    constructor
    · apply Returns.ok
      simp
    · apply Returns.ok
      simp
  | cons first rest ih =>
    unfold forwardHeaders
    split
    · rename_i hDropped
      refine ⟨?_, ih.2⟩
      intro kept hKept header
      rw [ih.1 kept hKept header, List.mem_cons, or_and_right]
      refine (or_iff_right ?_).symm
      rintro ⟨rfl, hOther⟩
      rw [hDropped] at hOther
      cases hOther
    · rename_i hDropped
      constructor
      · refine Returns.bind fun _ _ => Returns.bind fun kept hKept => Returns.ok ?_
        intro header
        rw [List.mem_cons, List.mem_cons, ih.1 kept hKept header, or_and_right]
        refine or_congr_left (iff_self_and.mpr ?_)
        rintro rfl
        exact Bool.eq_false_iff.mpr hDropped
      · refine Returns.bind fun _ hChecked => Returns.bind fun kept hKept => Returns.ok ?_
        exact List.forall_mem_cons.mpr ⟨hChecked, ih.2 kept hKept⟩

----
-- One Request
----

/- How the bytes of a request came about. -/
structure Written (parsers : Parsers) (first : List Char) (lines : List (List Char))
    (request : Request) (method target path rest : List Char) (headers : List Header)
    (nominated : List (List Char)) (kept : List Header) : Prop where
  first_eq : splitRequestLine first = .ok (method, target)
  method_eq : method = "GET".toList ∨ method = "HEAD".toList
  target_eq : Target parsers target request.host request.port path rest
  headers_eq : readHeaders lines = .ok (headers, nominated)
  kept_eq : forwardHeaders parsers request.host request.port nominated headers = .ok kept
  hosted : ∃ header ∈ kept, header.key = "host".toList
  forward : request.forward = forwarded method path kept

variable (hosts : List (List Char))

theorem parseLines_spec (first : List Char) (lines : List (List Char)) :
    Returns
      (fun request =>
        (request.host ∈ hosts ∧ (request.port = 80 ∨ request.port = 443)) ∧
        (request.connect = false → ∃ method target path rest headers nominated kept,
          Written parsers first lines request method target path rest headers nominated kept))
      (parseLines parsers hosts first lines) := by
  unfold parseLines
  refine Returns.bind fun parts hParts => ?_
  rcases parts with ⟨method, target⟩
  apply Returns.require
  intro hMethod
  refine Returns.bind fun found hFound => ?_
  rcases found with ⟨_, _, path⟩
  apply Returns.require
  intro hAllowed
  refine Returns.bind fun block hBlock => ?_
  rcases block with ⟨headers, nominated⟩
  refine Returns.bind fun kept hKept => ?_
  apply Returns.require
  intro hHosted
  apply Returns.ok
  refine ⟨of_decide_eq_true hAllowed, ?_⟩
  intro hConnect
  simp only at hConnect
  simp only [hConnect, Bool.false_eq_true, false_or, decide_eq_true_eq, List.any_eq_true]
    at hMethod hHosted
  rw [destination, hConnect, if_neg Bool.false_ne_true] at hFound
  rcases absoluteHttp_spec parsers target _ hFound with ⟨rest, hTarget⟩
  exact ⟨method, target, path, rest, headers, nominated, kept,
    { first_eq := hParts
      method_eq := hMethod
      target_eq := hTarget
      headers_eq := hBlock
      kept_eq := hKept
      hosted := hHosted
      forward := by simp only [hConnect, Bool.false_eq_true, if_false] }⟩

/- The lines are those of the header. -/
theorem parseRequest_spec (header : List UInt8) :
    Returns
      (fun request => ∃ first lines,
        firstLine header = first ∧ pairFree first ∧
        headerLines header = lines.takeWhile (· ≠ []) ∧
        parseLines parsers hosts first lines = .ok request)
      (parseRequest parsers header hosts) := by
  unfold parseRequest
  apply Returns.orFail
  intro text hText
  split
  · exact Returns.error 400
  · rename_i first lines hLines
    intro _ hRequest
    refine ⟨first, lines, ?_, ?_, ?_, hRequest⟩
    · simp [firstLine, hText, hLines]
    · apply pairFree_crlfLines text
      rw [hLines]
      exact List.mem_cons_self
    · simp [headerLines, hText, hLines]

/- Any request goes to an allowed host and port. -/
theorem parseRequest_allowed (header : List UInt8) :
    Returns
      (fun request =>
         request.host ∈ hosts ∧
         (request.port = 80 ∨ request.port = 443))
      (parseRequest parsers header hosts) := by
  intro request hRequest
  rcases parseRequest_spec parsers hosts header request hRequest with
    ⟨first, lines, _, _, _, hParsed⟩
  exact (parseLines_spec parsers hosts first lines request hParsed).1

theorem unbroken_of_nameByte {byte : UInt8} (hByte : nameByte byte) :
    byte ≠ 13 ∧ byte ≠ 10 := by
  constructor
  · rintro rfl
    cases hByte
  · rintro rfl
    cases hByte

theorem unbroken_of_not_controlByte {byte : UInt8} (hByte : controlByte byte = false) :
    byte ≠ 13 ∧ byte ≠ 10 := by
  constructor
  · rintro rfl
    cases hByte
  · rintro rfl
    cases hByte

/- A header with a name is a line of its own. -/
theorem ReadFrom.solid {line : List Char} {header : Header}
    {tokens : List (List Char)} (hRead : ReadFrom line header tokens) : Solid header.line where
  ne_nil := by simp [Header.line]
  unbroken := by
    intro byte hByte
    rw [Header.line, encode_append, encode_cons ':' header.value] at hByte
    rcases List.mem_append.mp hByte with hName | hRest
    · exact unbroken_of_nameByte (List.all_eq_true.mp hRead.name byte hName)
    · rcases List.mem_append.mp hRest with hColon | hValue
      · have hSame : byte = 58 := List.mem_singleton.mp hColon
        simp [hSame]
      · exact unbroken_of_not_controlByte
          (Bool.eq_false_iff.mpr (List.any_eq_false.mp hRead.value byte hValue))

theorem ReadFrom.name_eq_nil_iff {line : List Char} {header : Header} {tokens : List (List Char)}
    (hRead : ReadFrom line header tokens) : header.name = [] ↔ line.head? = some ':' := by
  have hColon := hRead.colon
  rw [hRead.line_eq, Header.line]
  cases hName : header.name with
  | nil => simp
  | cons letter name =>
    rw [hName, List.mem_cons, not_or] at hColon
    simpa using Ne.symm hColon.1

theorem solid_closing : Solid closing where
  ne_nil := by decide
  unbroken := by decide +kernel

/- What is said of every header that is kept. -/
structure Passed (lines : List (List Char)) (host : List Char) (port : Nat)
    (header : Header) : Prop where
  colon : ':' ∉ header.name
  hopByHop : header.key ∉ hopByHopKeys
  forwarding : header.key ∉ forwardingKeys
  nominated : ¬ Nominated lines header.key
  host : header.key = "host".toList → NamesHost host port (trim header.value)

/- Two ways to cut a line at its first colon are one. -/
theorem line_inj {header : Header} {name value : List Char} (hHeader : ':' ∉ header.name)
    (hName : ':' ∉ name) (hSame : header.line = name ++ ':' :: value) : header.name = name ∧
    header.value = value := by
  have hCut := congrArg (splitOnce ':') hSame
  rw [Header.line, splitOnce_append hHeader, splitOnce_append hName] at hCut
  exact Prod.mk.inj (Option.some.inj hCut)

/- Two of the keys are refused when a line is read. -/
theorem hopByHop_dropped_or_refused : ∀ key ∈ hopByHopKeys, key ∈ droppedKeys ∨
    key = "proxy-authorization".toList ∨ key = "transfer-encoding".toList := by decide +kernel

theorem forwarding_dropped : ∀ key ∈ forwardingKeys, key ∈ droppedKeys := by decide +kernel

section WrittenRequests

variable {parsers : Parsers} {first : List Char} {lines : List (List Char)} {request : Request}
variable {method target path rest : List Char} {headers kept : List Header}
variable {nominated : List (List Char)}

variable (hWritten :
  Written parsers first lines request method target path rest headers nominated kept)

include hWritten

theorem Written.firstLine_eq : first = requestLine method ("http://".toList ++ rest) := by
  rw [← hWritten.target_eq.target_eq]
  exact (splitRequestLine_spec hWritten.first_eq).2.1

/- A line end of the first line stands in the path, and is written again. -/
theorem Written.mem_requestLine_iff {letter : Char} (hEnd : letter = '\r' ∨ letter = '\n') :
    letter ∈ requestLine method path ↔ letter ∈ first := by
  have hForeign : foreign letter ∧ letter ≠ '+' ∧ letter ≠ ':' := by
    rcases hEnd with rfl | rfl <;> decide
  have hFixed : letter ∉ "GET".toList ∧ letter ∉ "HEAD".toList ∧ letter ≠ ' ' ∧
      letter ∉ "http://".toList ∧ letter ∉ " HTTP/1.1".toList ∧ letter ≠ '/' := by
    rcases hEnd with rfl | rfl <;> decide +kernel
  have hMethod : letter ∉ method := by
    rcases hWritten.method_eq with rfl | rfl
    · exact hFixed.1
    · exact hFixed.2.1
  rw [hWritten.firstLine_eq]
  simp only [requestLine, List.mem_append, List.mem_cons, hMethod, hFixed, false_or, or_false]
  rw [hWritten.target_eq.path_eq]
  split
  · rw [← List.takeWhile_append_dropWhile (p := (· ≠ '/')) (l := rest), List.mem_append,
      List.takeWhile_append_dropWhile]
    exact (or_iff_right (hWritten.target_eq.notMem_authority hForeign.1 hForeign.2)).symm
  · rename_i hNone
    have hAll : rest.takeWhile (· ≠ '/') = rest := by
      rw [List.takeWhile_eq_self_iff]
      rintro other hOther
      simp only [decide_eq_true_eq]
      rintro rfl
      exact hNone hOther
    have hRest := hWritten.target_eq.notMem_authority hForeign.1 hForeign.2
    rw [hAll] at hRest
    exact iff_of_false (by simpa using hFixed.2.2.2.2.2) hRest

theorem Written.unbroken_iff : (∀ byte ∈ encode (requestLine method path), byte ≠ 13 ∧ byte ≠ 10) ↔
    ∀ byte ∈ encode first, byte ≠ 13 ∧ byte ≠ 10 := by
  have hReturn := hWritten.mem_requestLine_iff (Or.inl rfl)
  have hFeed := hWritten.mem_requestLine_iff (Or.inr rfl)
  rw [Egress.unbroken_iff, Egress.unbroken_iff]
  simp only [ne_eq, forall_and, imp_not_comm, forall_eq, hReturn, hFeed]

/- Nothing that was read takes the first line apart. -/
theorem Written.whole (hFirst : pairFree first) : Whole (requestLine method path) where
  pairs := by
    have hPath : pairFree path := by
      rcases hWritten.target_eq.path_from with ⟨before, after, hTarget⟩ | rfl
      · rw [hWritten.firstLine_eq, ← hWritten.target_eq.target_eq, ← hTarget, requestLine,
          pairFree_append_iff, pairFree_append_iff, pairFree, pairFree_append_iff,
          pairFree_append_iff] at hFirst
        exact hFirst.1.2.1.2.1.2.1
      · exact pairFree_of_notMem (by decide)
    have hMethod : pairFree method := by
      apply pairFree_of_notMem
      rcases hWritten.method_eq with rfl | rfl
      · decide
      · decide
    rw [requestLine, pairFree_append_iff, pairFree_append_iff, pairFree]
    refine ⟨⟨hMethod, ⟨?_, hPath⟩, fun _ => by simp⟩, pairFree_of_notMem (by decide), ?_⟩
    · intro hReturn
      cases hReturn
    · exact fun _ => by decide
  ending := by
    have hLast : " HTTP/1.1".toList.getLast? = some '1' := by decide
    rw [requestLine, List.getLast?_append, hLast]
    simp

theorem Written.solid_kept (header : Header) (hHeader : header ∈ kept) : Solid header.line := by
  have hMem := ((forwardHeaders_spec parsers _ _ _ _).1 kept hWritten.kept_eq header).mp hHeader
  rcases (readHeaders_spec lines _ hWritten.headers_eq).1 header hMem.1 with ⟨_, _, _, hRead⟩
  exact hRead.solid

/- A line of the header is kept, unless its key is dropped. -/
theorem Written.mem_kept {line : List Char} (hLine : line ∈ lines.takeWhile (· ≠ [])) :
    ∃ header tokens, ReadFrom line header tokens ∧ [] ∉ nominated ∧
      (isDropped nominated header = false → header ∈ kept) := by
  rcases readHeaders_spec lines _ hWritten.headers_eq with ⟨_, hLines, hSome⟩
  rcases hLines line hLine with ⟨header, hHeader, tokens, hRead, _⟩
  refine ⟨header, tokens, hRead, hSome, fun hDropped => ?_⟩
  exact ((forwardHeaders_spec parsers _ _ _ _).1 kept hWritten.kept_eq header).mpr
    ⟨hHeader, hDropped⟩

/- Every `Host` is kept, since one is. -/
theorem Written.host_kept {header : Header} (hKey : header.key = "host".toList) :
    isDropped nominated header = false := by
  rcases hWritten.hosted with ⟨other, hOther, hSame⟩
  have hDropped :=
    (((forwardHeaders_spec parsers _ _ _ _).1 kept hWritten.kept_eq other).mp hOther).2
  unfold isDropped at hDropped ⊢
  rwa [hKey, ← hSame]

theorem Written.targetAuthority_eq : targetAuthority first = rest.takeWhile (· ≠ '/') := by
  have hPrefix : ("http://".toList ++ rest).dropPrefix? "http://".toList = some rest :=
    List.dropPrefix?_append_of_beq _ (beq_self_eq_true _)
  rw [targetAuthority, (splitRequestLine_spec hWritten.first_eq).1, hWritten.target_eq.target_eq]
  simp only [List.getElem?_cons_succ, List.getElem?_cons_zero, Option.bind_some, hPrefix,
    Option.getD_some]

/- A kept header was not nominated, nor to be dropped. -/
theorem Written.passed
    (hPort : (∃ line ∈ lines.takeWhile (· ≠ []), PortlessHost line) →
      NamesDefaultPort (targetAuthority first))
    (header : Header)
    (hHeader : header ∈ kept) :
    Passed (lines.takeWhile (· ≠ [])) request.host request.port header := by
  rcases readHeaders_spec lines _ hWritten.headers_eq with ⟨hHeaders, hLines, _⟩
  have hMem := ((forwardHeaders_spec parsers _ _ _ _).1 kept hWritten.kept_eq header).mp hHeader
  rcases hHeaders header hMem.1 with ⟨line, hLine, _, hRead⟩
  have hDropped := hMem.2
  simp only [isDropped, decide_eq_false_iff_not, not_or] at hDropped
  refine { colon := hRead.colon, hopByHop := ?_, forwarding := ?_, nominated := ?_, host := ?_ }
  · intro hKey
    rcases hopByHop_dropped_or_refused _ hKey with hOther | hAuthorization | hEncoding
    · exact hDropped.2 hOther
    · exact hRead.key.1 hAuthorization
    · exact hRead.key.2 hEncoding
  · intro hKey
    exact hDropped.2 (forwarding_dropped _ hKey)
  · rintro ⟨_, hOther, _, _, rfl, hName, hKey, _, hPiece, hToken⟩
    rcases hLines _ hOther with ⟨_, _, _, hOtherRead, hNamed⟩
    rcases line_inj hOtherRead.colon hName hOtherRead.line_eq.symm with ⟨hSame, hValue⟩
    apply hDropped.1
    rw [← hToken]
    apply hNamed
    apply hOtherRead.nominates
    · rw [Header.key, hSame]
      exact hKey
    · rw [hValue]
      exact hPiece
  · intro hKey
    refine checkHost_spec hKey
      ((forwardHeaders_spec parsers _ _ _ _).2 kept hWritten.kept_eq header hHeader) ?_
    intro hColon
    rw [hWritten.target_eq.port_eq_iff, ← hWritten.targetAuthority_eq]
    exact hPort ⟨line, hLine, header.name, header.value, hRead.line_eq, hRead.colon, hKey, hColon⟩

theorem Written.whole_lines (hFirst : pairFree first) :
    ∀ line ∈ requestLine method path :: kept.map Header.line ++ [closing], Whole line := by
  intro line hMem
  rcases List.mem_append.mp hMem with hStart | hClosing
  · rcases List.mem_cons.mp hStart with rfl | hHeader
    · exact hWritten.whole hFirst
    · rcases List.mem_map.mp hHeader with ⟨header, hKept, rfl⟩
      exact (hWritten.solid_kept header hKept).whole
  · rw [List.mem_singleton.mp hClosing]
    exact solid_closing.whole

end WrittenRequests

/-
  The forwarded bytes are one request line, header lines with names and one empty line; what is
  meant for the proxy alone is not among them, every `Host` names the host and the port, and both
  are allowed.
-/
def OneRequest (hosts : List (List Char)) (header : List UInt8) (request : Request) : Prop :=
  ∃ (method path : List Char) (kept : List Header),
    (method = "GET".toList ∨ method = "HEAD".toList) ∧
    ' ' ∉ path ∧
    request.forward = message (requestLine method path :: kept.map Header.line ++ [closing]) ∧
    (∀ line ∈ requestLine method path :: kept.map Header.line ++ [closing], Solid line) ∧
    (∀ passed ∈ kept,
      passed.name ≠ [] ∧ Passed (headerLines header) request.host request.port passed) ∧
    request.host ∈ hosts ∧
    (request.port = 80 ∨ request.port = 443)

/-
  An accepted request that is not a tunnel is forwarded as one request exactly if its first line is
  whole, its lines have names, and a `Host` without a port comes with a target on port 80.
-/
theorem forwards_one_request_iff
    (parsers : Parsers)
    (hosts : List (List Char))
    (header : List UInt8)
    (request : Request)
    (hAccepted : parseRequest parsers header hosts = .ok request)
    (hForwards : request.connect = false) :
    OneRequest hosts header request ↔
      (∀ byte ∈ encode (firstLine header), byte ≠ 13 ∧ byte ≠ 10) ∧
      (∀ line ∈ headerLines header, line.head? ≠ some ':') ∧
      ((∃ line ∈ headerLines header, PortlessHost line) →
       NamesDefaultPort (targetAuthority (firstLine header))) := by
  rcases parseRequest_spec parsers hosts header request hAccepted with
    ⟨first, lines, rfl, hPairs, hLines, hParsed⟩
  rcases parseLines_spec parsers hosts _ lines request hParsed with ⟨hAllowed, hWritten⟩
  rcases hWritten hForwards with
    ⟨method, target, path, rest, headers, nominated, kept, hWritten⟩
  rw [OneRequest, hLines]
  constructor
  · rintro ⟨start, way, passed, _, _, hForward, hSolid, hPassed, _⟩
    -- The lines of a message are its own, so what is said of them is said of what was written.
    rw [hWritten.forward, forwarded_eq_message] at hForward
    have hSame := message_inj (hWritten.whole_lines hPairs) (fun line hLine => (hSolid line
      hLine).whole) hForward
    rcases List.cons.inj (List.append_cancel_right hSame) with ⟨hLine, hKept⟩
    have hSent (header : Header) (hMem : header ∈ kept) :
        ∃ other ∈ passed, other.line = header.line := by
      have hLines := List.mem_map_of_mem (f := Header.line) hMem
      rw [hKept] at hLines
      exact List.mem_map.mp hLines
    refine ⟨?_, ?_, ?_⟩
    · rw [← hWritten.unbroken_iff, hLine]
      exact (hSolid _ (by simp)).unbroken
    · intro line hMem hColon
      rcases hWritten.mem_kept hMem with ⟨header, tokens, hRead, hSome, hIn⟩
      have hNil := hRead.name_eq_nil_iff.mpr hColon
      have hOpen : isDropped nominated header = false := by
        have hNone : [] ∉ droppedKeys := by decide +kernel
        simp [isDropped, Header.key, hNil, lower, hSome, hNone]
      rcases hSent header (hIn hOpen) with ⟨other, hOther, hEq⟩
      rcases hPassed other hOther with ⟨hName, hPass⟩
      exact hName ((line_inj hPass.colon hRead.colon hEq).1.trans hNil)
    · rintro ⟨line, hMem, name, value, rfl, hName, hKey, hAlone⟩
      rcases hWritten.mem_kept hMem with ⟨header, tokens, hRead, _, hIn⟩
      rcases line_inj hRead.colon hName hRead.line_eq.symm with ⟨rfl, rfl⟩
      rcases hSent header (hIn (hWritten.host_kept hKey)) with ⟨other, hOther, hEq⟩
      have hPass := (hPassed other hOther).2
      rcases line_inj hPass.colon hRead.colon hEq with ⟨hNames, hValues⟩
      rcases hPass.host (by rw [Header.key, hNames]; exact hKey) with
        ⟨_, _, hPort | ⟨digits, hBoth, _⟩⟩
      · rw [hWritten.targetAuthority_eq, ← hWritten.target_eq.port_eq_iff]
        exact hPort.2
      · rw [hValues] at hBoth
        rw [hBoth] at hAlone
        simp at hAlone
  · rintro ⟨hFirst, hNames, hPort⟩
    refine ⟨method, path, kept, hWritten.method_eq, ?_, ?_, ?_, ?_, hAllowed⟩
    · have hSpace := (splitRequestLine_spec hWritten.first_eq).2.2
      rcases hWritten.target_eq.path_from with hInfix | rfl
      · exact fun hMem => hSpace (hInfix.subset hMem)
      · decide
    · rw [hWritten.forward]
      exact forwarded_eq_message method path kept
    · intro line hMem
      rcases List.mem_append.mp hMem with hStart | hClosing
      · rcases List.mem_cons.mp hStart with rfl | hHeader
        · exact ⟨by simp [requestLine], hWritten.unbroken_iff.mpr hFirst⟩
        · rcases List.mem_map.mp hHeader with ⟨passed, hPassed, rfl⟩
          exact hWritten.solid_kept passed hPassed
      · rw [List.mem_singleton.mp hClosing]
        exact solid_closing
    · intro passed hPassed
      refine ⟨fun hNil => ?_, hWritten.passed hPort passed hPassed⟩
      have hMem :=
        ((forwardHeaders_spec parsers _ _ _ _).1 kept hWritten.kept_eq passed).mp hPassed
      rcases (readHeaders_spec lines _ hWritten.headers_eq).1 passed hMem.1 with
        ⟨line, hLine, _, hRead⟩
      exact hNames line hLine (hRead.name_eq_nil_iff.mp hNil)

/- A parser of addresses that finds none. -/
def noAddresses : Parsers where
  ipAddr := fun _ => none
  socketAddr := fun _ => none

def exampleHosts : List (List Char) := ["example.com".toList]

def plainHeader : List UInt8 :=
  encode ("GET http://example.com/a HTTP/1.1\r\n" ++ "Host: example.com\r\n" ++
      "Connection: x-trace\r\n" ++ "X-Trace: 7\r\n\r\n").toList

def plainRequest : Request where
  host := "example.com".toList
  port := 80
  connect := false
  forward :=
    encode ("GET /a HTTP/1.1\r\n" ++ "Host: example.com\r\n" ++ "Connection: close\r\n\r\n").toList

/- A plain request is forwarded as one. -/
theorem plain_request_is_one_request :
    parseRequest noAddresses plainHeader exampleHosts =
      .ok plainRequest ∧
    OneRequest exampleHosts plainHeader plainRequest := by
  have hAccepted : parseRequest noAddresses plainHeader exampleHosts = .ok plainRequest := by
    decide +kernel
  refine ⟨hAccepted, (forwards_one_request_iff noAddresses exampleHosts plainHeader plainRequest
    hAccepted rfl).mpr ⟨by decide +kernel, by decide +kernel, fun _ host digits hSplit => ?_⟩⟩
  have hNone : splitLast ':' (targetAuthority (firstLine plainHeader)) = none := by decide +kernel
  rw [hNone] at hSplit
  cases hSplit

/- The answer to a header, and the text that is forwarded. -/
def forwardsAs (header forward : String) (port : Nat) : Prop :=
  parseRequest noAddresses (encode header.toList) exampleHosts =
    .ok ⟨"example.com".toList, port, false, encode forward.toList⟩

instance (header forward : String) (port : Nat) : Decidable (forwardsAs header forward port) :=
  inferInstanceAs (Decidable (_ = _))

/-
  The path may hold a line feed, a header may have no name, and a `Host` without a port is passed on
  for port 443.
-/
theorem broken_lines_are_forwarded :
    forwardsAs
      "GET http://example.com/a\nb HTTP/1.1\r\nHost: example.com\r\n\r\n"
      "GET /a\nb HTTP/1.1\r\nHost: example.com\r\nConnection: close\r\n\r\n"
      80 ∧
    forwardsAs
      "GET http://example.com/a HTTP/1.1\r\nHost: example.com\r\n: x\r\n\r\n"
      "GET /a HTTP/1.1\r\nHost: example.com\r\n: x\r\nConnection: close\r\n\r\n"
      80 ∧
    forwardsAs
      "GET http://example.com:443/a HTTP/1.1\r\nHost: example.com\r\n\r\n"
      "GET /a HTTP/1.1\r\nHost: example.com\r\nConnection: close\r\n\r\n"
      443 := by
  decide +kernel

end VonkForge.Egress
