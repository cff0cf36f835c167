import VonkForge.Egress.Address
import VonkForge.Foundations.Fallible
import VonkForge.Foundations.Text

/-
  What the build proxy makes of a request's header.

  A header is read line by line. A request other than a tunnel is written again for the upstream:
  its method, its path and those of its headers that are meant for the end of the way.

  Sources: `parse_request`, `absolute_http`, `authority`, `authority_with_default`,
  `authority_checked`, `valid_hostname` and `blocked_metadata_name` of the build proxy.

  Main declarations:
    * `Request`
    * `readHeaders`
    * `forwardHeaders`
-/

----
-- Hosts and Ports
----

namespace VonkForge.Egress

open Text Fallible

def digitsOf (digits : List Char) : Option Nat :=
  if digits ≠ [] ∧ digits.all Char.isDigit then
    some (digits.foldl (fun number digit => 10 * number + (digit.toNat - '0'.toNat)) 0)
  else none

/- `parse::<u16>`, which takes a sign. -/
def parseU16 (text : List Char) : Option Nat :=
  let digits :=
    match text with
    | '+' :: rest => rest
    | _ => text
  (digitsOf digits).filter (fun number => number < 65536)

def validLabel (label : List Char) : Bool :=
  label ≠ [] ∧ (encode label).length ≤ 63 ∧ label.head? ≠ some '-' ∧ label.getLast? ≠ some '-' ∧
    label.all (fun letter => letter.isLower ∨ letter.isDigit ∨ letter = '-')

variable (parsers : Parsers) (value : List Char)

def validHostname : Bool :=
  if 253 < (encode value).length ∨ value = [] ∨ (parsers.ipAddr value).isSome ∨
    value.getLast? = some '.'
  then false
  else (value.splitOn '.').all validLabel ∧ '.' ∈ value

def blockedMetadataName : Bool :=
  value = "localhost".toList ∨ value = "metadata.google.internal".toList ∨
    value = "metadata.aws.internal".toList ∨ ".localhost".toList.isSuffixOf value ∨
    "metadata.".toList.isPrefixOf value

variable (host : List Char) (port : Nat)

def authorityChecked : Except Nat (List Char × Nat) :=
  let host := lower host
  if validHostname parsers host = false ∨ blockedMetadataName host
  then .error 403
  else .ok (host, port)

def authority : Except Nat (List Char × Nat) := do
  let (host, port) ← orFail (splitLast ':' value) 400
  let port ← orFail (parseU16 port) 400
  authorityChecked parsers host port

def authorityWithDefault (default : Nat) : Except Nat (List Char × Nat) :=
  match splitLast ':' value with
  | some (host, port) =>
    if ':' ∈ host then authorityChecked parsers value default
    else do
      let port ← orFail (parseU16 port) 400
      authorityChecked parsers host port
  | none => authorityChecked parsers value default

/- The host, the port and the path of a request. -/
def absoluteHttp : Except Nat (List Char × Nat × List Char) := do
  let rest ← orFail (value.dropPrefix? "http://".toList) 403
  require ('@' ∉ rest ∧ '#' ∉ rest) 400
  let (host, port) ← authorityWithDefault parsers (rest.takeWhile (· ≠ '/')) 80
  let path :=
    if '/' ∈ rest then rest.dropWhile (· ≠ '/')
    else ['/']
  require ((encode path).length ≤ 8192) 414
  return (host, port, path)

----
-- Headers
----

structure Header where
  name : List Char
  value : List Char
deriving DecidableEq

variable (header : Header)

def Header.key : List Char := lower header.name

/- Bytes that a name may hold. -/
def nameByte (byte : UInt8) : Bool := (48 <= byte && byte <= 57) || (65 <= byte && byte <= 90)
    || (97 <= byte && byte <= 122) || byte == 45

def controlByte (byte : UInt8) : Bool := byte < 32 && byte != 9

/- What a `Connection` header nominates, one by one. -/
def nominatedTokens : List (List Char) → Except Nat (List (List Char))
  | [] => .ok []
  | piece :: rest => do
      let token := trim piece
      require (token ≠ [] ∧ (encode token).all nameByte) 400
      let tokens ← nominatedTokens rest
      return lower token :: tokens

def nominatedBy : Except Nat (List (List Char)) :=
  if header.key = "connection".toList then nominatedTokens (header.value.splitOn ',')
  else .ok []

/- One line: a header, and the headers it nominates. -/
def readHeader (line : List Char) : Except Nat (Header × List (List Char)) := do
  let (name, value) ← orFail (splitOnce ':' line) 400
  let header : Header := { name := name, value := value }
  require ((encode name).all nameByte ∧ !(encode value).any controlByte) 400
  require (header.key ≠ "proxy-authorization".toList) 403
  require (header.key ≠ "transfer-encoding".toList) 413
  let tokens ← nominatedBy header
  require (header.key = "content-length".toList → trim value = ['0']) 413
  return (header, tokens)

/- The lines up to the first empty one. -/
def readHeaders : List (List Char) → Except Nat (List Header × List (List Char))
  | [] => .ok ([], [])
  | line :: lines =>
    if line = [] then .ok ([], [])
    else do
      let (header, tokens) ← readHeader line
      let (headers, nominated) ← readHeaders lines
      return (header :: headers, tokens ++ nominated)

/- Headers that end at the proxy, under any nomination. -/
def droppedKeys : List (List Char) :=
  ["connection".toList, "proxy-connection".toList, "keep-alive".toList,
    "te".toList, "trailer".toList, "upgrade".toList,
    "proxy-authenticate".toList, "forwarded".toList, "x-forwarded-for".toList,
    "x-forwarded-host".toList, "x-forwarded-proto".toList]

def isDropped (nominated : List (List Char)) (header : Header) : Bool :=
  header.key ∈ nominated ∨ header.key ∈ droppedKeys

/- A `Host` header names the host that was accepted. -/
def checkHost (header : Header) : Except Nat Unit :=
  if header.key = "host".toList then do
    let (headerHost, headerPort) ← authorityWithDefault parsers (trim header.value) port
    require (headerHost = host ∧ headerPort = port) 400
  else .ok ()

/- The headers that are kept, in their order. -/
def forwardHeaders (parsers : Parsers) (host : List Char) (port : Nat)
    (nominated : List (List Char)) : List Header → Except Nat (List Header)
  | [] => .ok []
  | header :: rest =>
    if isDropped nominated header then forwardHeaders parsers host port nominated rest
    else do
      checkHost parsers host port header
      let headers ← forwardHeaders parsers host port nominated rest
      return header :: headers

----
-- Requests
----

structure Request where
  host : List Char
  port : Nat
  connect : Bool
  forward : List UInt8
deriving DecidableEq

def crlf : List UInt8 := [13, 10]

def requestLine (method path : List Char) : List Char := method ++ ' ' :: path ++ " HTTP/1.1".toList

/- What a kept header adds to the forwarded bytes. -/
def Header.bytes : List UInt8 := encode header.name ++ encode [':'] ++ encode header.value ++ crlf

def closing : List Char := "Connection: close".toList

/- The bytes of a request that is written again. -/
def forwarded (method path : List Char) (headers : List Header) : List UInt8 :=
  encode (requestLine method path) ++ crlf ++ headers.flatMap Header.bytes ++ encode closing ++
    crlf ++ crlf

/- The first line: its method, its target, its version. -/
def splitRequestLine (first : List Char) : Except Nat (List Char × List Char) :=
  match first.splitOn ' ' with
  | [method, target, version] =>
    if version = "HTTP/1.1".toList then .ok (method, target)
    else .error 400
  | _ => .error 400

/- The host, the port and the path that are asked for. -/
def destination (connect : Bool) (target : List Char) : Except Nat (List Char × Nat × List Char) :=
  if connect then do
    let (host, port) ← authority parsers target
    return (host, port, [])
  else absoluteHttp parsers target

/- The checks and the writing, once the lines are cut. -/
def parseLines (hosts : List (List Char))
    (first : List Char) (lines : List (List Char)) : Except Nat Request := do
  let (method, target) ← splitRequestLine first
  let connect : Bool := method = "CONNECT".toList
  require (connect ∨ method = "GET".toList ∨ method = "HEAD".toList) 405
  let (host, port, path) ← destination parsers connect target
  require (host ∈ hosts ∧ (port = 80 ∨ port = 443)) 403
  let (headers, nominated) ← readHeaders lines
  let kept ← forwardHeaders parsers host port nominated headers
  require (connect ∨ kept.any (fun header => header.key = "host".toList)) 400
  return {
    host := host
    port := port
    connect := connect
    forward := if connect then [] else forwarded method path kept }

def parseRequest (header : List UInt8)
    (hosts : List (List Char)) : Except Nat Request := do
  let text ← orFail (decode header) 400
  match crlfLines text with
  | [] => .error 400
  | first :: lines => parseLines parsers hosts first lines

end VonkForge.Egress
