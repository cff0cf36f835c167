import VonkForge.Foundations.Text
import VonkForge.Foundations.Scan

/-
  Opaque values, as the agent and the Controller redact them.

  The agent cuts a word into segments of opaque characters and dots, and redacts a segment of 40
  bytes or more that has no dot. The Controller substitutes the matches of a pattern with a
  character on either side that must not be there. Either keeps a value that is a field with a
  refusal code, which a predicate stands for here.

  Sources: `redact_opaque_runs`, `redact_opaque` and `is_field_name` of the agent, and
  `_OPAQUE_SECRET`, `_redact_opaque` and `_FIELD` of the Controller.

  Main declarations:
    * `redactOpaqueRuns`
    * `opaqueSecret`
    * `substituteOpaque`
-/

----
-- The Agent
----

namespace VonkForge.Evidence

open Text

/- `charset` of `redact_opaque_runs`. -/
def charset (c : Char) : Bool := c.isAlphanum || ['+', '/', '=', '_', '-'].contains c

def opaqueMarker : List Char := "[redacted opaque value]".toList

def isFieldName (name : List Char) : Bool := (encode name).length ≤ 32 &&
    match name with
    | [] => false
    | first :: rest =>
      (first.isAlpha || first == '_') && rest.all (fun c => c.isAlphanum || c == '_')

variable (isCode : List Char → Bool) (token : List Char)

/- A field whose value is a refusal code. -/
def isRefusalField : Bool :=
  match splitOnce '=' token with
  | some (name, value) => isFieldName name && isCode value
  | none => false

def redactOpaque : List Char :=
  if isRefusalField isCode token then token
  else opaqueMarker

/- `flush`, with what it writes. -/
def flush (segment : List Char) : List Char :=
  if (encode segment).length ≥ 40 ∧ segment.all charset then redactOpaque isCode segment
  else segment

def redactLoop (isCode : List Char → Bool) : List Char → List Char → List Char → List Char
  | segment, out, [] => out ++ flush isCode segment
  | segment, out, c :: word =>
    if charset c || c == '.' then redactLoop isCode (segment ++ [c]) out word
    else redactLoop isCode [] (out ++ flush isCode segment ++ [c]) word

def redactOpaqueRuns (word : List Char) : List Char := redactLoop isCode [] [] word

----
-- The Controller
----

/- `[A-Za-z0-9/.]`. -/
def barredBeside (c : Char) : Bool := c.isAlphanum || c == '/' || c == '.'

/- `_OPAQUE_SECRET`. -/
def opaqueSecret : RunPattern Char where
  body c := c.isAlphanum || ['+', '/', '=', '_', '-'].contains c
  barred := barredBeside
  least := 40
  least_pos := by decide

def valueHere : List Char → Option (List Char)
  | [] => none
  | c :: value =>
    if c = '=' then some value
    else none

/- The value behind a name of at most so many characters. -/
def valueAfter (rest : List Char) : Nat → Option (List Char)
  | 0 => valueHere rest
  | n + 1 => (valueHere (rest.drop (n + 1))).orElse (fun _ => valueAfter rest n)

/- `_FIELD.fullmatch(token)`, with its second group. -/
def fieldValue : List Char → Option (List Char)
  | [] => none
  | first :: rest =>
    if first.isAlpha || first == '_' then
      valueAfter rest (min 31 (rest.takeWhile (fun c => c.isAlphanum || c == '_')).length)
    else none

/- `_redact_opaque`. -/
def redactMatch : List Char :=
  match fieldValue token with
  | some value =>
    if isCode value then token
    else opaqueMarker
  | none => opaqueMarker

/- `_OPAQUE_SECRET.sub(_redact_opaque, text)`. -/
def substituteOpaque (text : List Char) : List Char :=
  opaqueSecret.substitute (redactMatch isCode) 0 none text

end VonkForge.Evidence
