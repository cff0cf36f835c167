import VonkForge.Foundations.Utf8

/-
  Cutting a retained tail, in the agent and the Controller.

  The agent cuts the bytes of a string, and a cut inside a character is a panic. The Controller
  encodes its text, cuts the bytes with signed positions and decodes what is left, which raises if
  it is not text. Either way there is then no result.

  Sources: `clamp_retained`, `clamp_tail` and `keep_front` of the agent, `is_omission_marker` of the
  protocol, and `_keep_retained` and `_keep_end` of the Controller.

  Main declarations:
    * `isOmissionMarker`
    * `clampRetained`
    * `matchesMarker`
-/

----
-- The Agent
----

namespace VonkForge.Evidence

open Text

variable (text : List UInt8)

/- `str::is_char_boundary`. -/
def isCharBoundary (index : Nat) : Bool :=
  if index = 0 then true
  else
    match text[index]? with
    | none => index == text.length
    | some byte => !isContinuation byte

/- `&text[index..]`. -/
def sliceFrom (index : Nat) : Option (List UInt8) :=
  if isCharBoundary text index then some (text.drop index)
  else none

/- `&text[..index]`. -/
def sliceTo (index : Nat) : Option (List UInt8) :=
  if isCharBoundary text index then some (text.take index)
  else none

/- The loop of `clamp_tail`, for at most so many steps. -/
def nextBoundary (text : List UInt8) : Nat → Nat → Nat
  | 0, cut => cut
  | fuel + 1, cut =>
    if cut < text.length ∧ isCharBoundary text cut = false
    then nextBoundary text fuel (cut + 1)
    else cut

/- Past the line that is cut, unless nothing is left then. -/
def skipLine (text rest : List UInt8) (cut : Nat) : Nat :=
  match rest.idxOf? 10 with
  | some index =>
    if cut + index + 1 < text.length then cut + index + 1
    else cut
  | none => cut

def clampTail (limit : Nat) : Option (List UInt8 × Nat) :=
  if text.length ≤ limit then some (text, 0)
  else do
    let cut := nextBoundary text limit (text.length - limit)
    let rest ← sliceFrom text cut
    let cut := skipLine text rest cut
    let kept ← sliceFrom text cut
    return (kept, cut)

/- `str::floor_char_boundary`, of a position inside. -/
def floorCharBoundary (text : List UInt8) : Nat → Nat
  | 0 => 0
  | index + 1 =>
    if isCharBoundary text (index + 1) then index + 1
    else floorCharBoundary text index

/- The position of the last byte of a value. -/
def lastIndexOf (byte : UInt8) (text : List UInt8) : Option Nat :=
  (text.reverse.idxOf? byte).map (fun index => text.length - 1 - index)

def keepFront (limit : Nat) : Option (List UInt8) :=
  if text.length ≤ limit then some text
  else do
    let front ← sliceTo text (floorCharBoundary text limit)
    match lastIndexOf 10 front with
    | some index => sliceTo text (index + 1)
    | none => return front

def digitByte (byte : UInt8) : Bool := 48 ≤ byte.toNat ∧ byte.toNat ≤ 57

def markerEnd : List Char := " bytes omitted]".toList

def isOmissionMarker (line : List UInt8) : Bool :=
  ((line.dropPrefix? (encode ['['])).bind (fun rest =>
    rest.dropSuffix? (encode markerEnd))).any (fun count => count ≠ [] ∧ count.all digitByte)

/- `split_inclusive`, at line ends. -/
def splitInclusive : List (List UInt8) := inclusive 10 text

def trimLineEnds (line : List UInt8) : List UInt8 := (line.reverse.dropWhile (· = 10)).reverse

/- Where the first marker line starts and ends. -/
def findMarker : Nat → List (List UInt8) → Option (Nat × Nat)
  | _, [] => none
  | start, line :: rest =>
    if isOmissionMarker (trimLineEnds line) then some (start, start + line.length)
    else findMarker (start + line.length) rest

/- A subtraction of `usize`, which panics below zero. -/
def minus (left right : Nat) : Option Nat := if right ≤ left then some (left - right) else none

def clampRetained (limit : Nat) : Option (List UInt8 × Nat) :=
  if text.length ≤ limit then some (text, 0)
  else
    match findMarker 0 (splitInclusive text) with
    | none => clampTail text limit
    | some (first, last) => do
        let causes ← sliceTo text first
        let tail ← sliceFrom text last
        let marker ← sliceFrom (text.take last) first
        let budget := limit - (last - first)
        let causes ← keepFront causes (max (budget / 2) (budget - tail.length))
        let room ← minus budget causes.length
        let (tail, _) ← clampTail tail room
        let kept := causes ++ marker ++ tail
        let dropped ← minus text.length kept.length
        return (kept, dropped)

----
-- The Controller
----

/- `encoded[cut] & 0xC0 == 0x80`. -/
def continues (byte : UInt8) : Bool := byte &&& 0xC0 == 0x80

def skipContinuations (encoded : List UInt8) : Nat → Nat → Nat
  | 0, cut => cut
  | fuel + 1, cut =>
    if (encoded[cut]?).any continues then skipContinuations encoded fuel (cut + 1)
    else cut

/- `encoded.find(b"\n", cut)`, and the move past it. -/
def nextLine (encoded : List UInt8) (cut : Nat) : Nat :=
  match (encoded.drop cut).idxOf? 10 with
  | some index =>
    if cut + index < encoded.length - 1 then cut + index + 1
    else cut
  | none => cut

def keepEnd (text : List Char) (limit : Int) : Option (List Char × Nat) :=
  let encoded := encode text
  if (encoded.length : Int) ≤ limit then some (text, 0)
  else
    let cut := skipContinuations encoded encoded.length (encoded.length - limit).toNat
    let cut := nextLine encoded cut
    (decode (encoded.drop cut)).map (fun kept => (kept, cut))

/- `re.compile(r"\[[0-9]+ bytes omitted\]")`, in full. -/
def matchesMarker : List Char → Bool
  | '[' :: rest => rest.takeWhile Char.isDigit ≠ [] ∧ rest.dropWhile Char.isDigit = markerEnd
  | _ => false

/- The first line that matches, if all before it decode. -/
def searchMarker : Nat → List (List UInt8) → Option (Option (Nat × Nat))
  | _, [] => some none
  | start, line :: rest => do
      let text ← decode line
      if matchesMarker text then return some (start, start + line.length + 1)
      else searchMarker (start + line.length + 1) rest

/- A position of a slice; a negative one is from the end. -/
def sliceStop (length : Nat) (stop : Int) : Nat :=
  if stop < 0 then (length + stop).toNat
  else stop.toNat

def stepBack (causes : List UInt8) : Nat → Nat
  | 0 => 0
  | cut + 1 =>
    if (causes[cut + 1]?).any continues then stepBack causes cut
    else cut + 1

/- The causes that fit into the room. -/
def fitCauses (causes : List UInt8) (room : Int) : List UInt8 :=
  if (causes.length : Int) ≤ room then causes
  else
    let cut : Int := if 0 < room then stepBack causes room.toNat else room
    let front := causes.take (sliceStop causes.length cut)
    match lastIndexOf 10 front with
    | some newline => causes.take (newline + 1)
    | none => front

def keepRetained (text : List Char) (limit : Int) : Option (List Char × Int) :=
  let encoded := encode text
  if (encoded.length : Int) ≤ limit then some (text, 0)
  else do
    match ← searchMarker 0 (encoded.splitOn 10) with
    | none =>
      let (kept, dropped) ← keepEnd text limit
      return (kept, dropped)
    | some (first, last) =>
      let causes := encoded.take first
      let marker := (encoded.take last).drop first
      let window := encoded.drop last
      let budget := limit - marker.length
      let room := max (budget / 2) (budget - window.length)
      let causes := fitCauses causes room
      let windowText ← decode window
      let (keptWindow, _) ← keepEnd windowText (budget - causes.length)
      let causesText ← decode causes
      let markerText ← decode marker
      let kept := causesText ++ markerText ++ keptWindow
      return (kept, encoded.length - (encode kept).length)

end VonkForge.Evidence
