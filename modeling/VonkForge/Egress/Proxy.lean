import VonkForge.Egress.Request

/-
  How the build proxy serves one connection.

  A request that is accepted is resolved, in up to three attempts, and the first answer that can be
  used is tried address by address. What the clock, the resolver and the network do is given, and
  what the proxy does is recorded.

  Sources: `handle_until`, `resolve_observed`, `validate_resolved` and `connect_until` of the build
  proxy.

  Main declarations:
    * `World`
    * `Event`
    * `scanLines`
-/

----
-- What the Proxy Meets and Does
----

namespace VonkForge.Egress

def maxResolvedAddresses : Nat := 16

/- Whether it is too late, and what the resolver puts out. -/
structure Attempt where
  late : Bool
  output : Option (List UInt8)
deriving DecidableEq

/- Whether it is too late, and whether there is an answer. -/
structure Dial where
  late : Bool
  connects : Bool
deriving DecidableEq

structure World where
  attempts : Nat → Attempt
  dials : Nat → Dial

inductive Event where
  | observed (host : List Char) (port : Nat) (output : Option (List UInt8))
  | connecting (address : SocketAddr)
  | rejected (status : Nat)
  | relayed (connect : Bool) (forward : List UInt8)
deriving DecidableEq

----
-- Resolving
----

open Text

def IpAddr.key : IpAddr → List Nat
  | .v4 a b c d => [4, a.toNat, b.toNat, c.toNat, d.toNat]
  | .v6 octets => 6 :: octets.toList.map UInt8.toNat

/- The order of addresses in a set. -/
def SocketAddr.key (address : SocketAddr) : List Nat :=
  address.ip.key ++ [address.port, address.scopeId]

/- A set of addresses, in their order. -/
def insertAddress (address : SocketAddr) (addresses : List SocketAddr) : List SocketAddr :=
  if address ∈ addresses then addresses
  else addresses.orderedInsert (fun left right => left.key ≤ right.key) address

variable (parsers : Parsers)

/- One line. There is no result for a denied address. -/
def scanLine (port : Nat) (addresses : List SocketAddr) (valid : Bool)
    (line : List Char) : Option (List SocketAddr × Bool) :=
  match parsers.socketAddr line with
  | some address =>
    if address.port = port then
      if publicIp address.ip then some (insertAddress address addresses, valid)
      else none
    else some (addresses, false)
  | none => some (addresses, false)

inductive Scan where
  | denied
  | answer (addresses : List SocketAddr) (valid : Bool)
deriving DecidableEq

def scanLines (parsers : Parsers) (port : Nat) (addresses : List SocketAddr) (valid : Bool) :
    List (List Char) → Scan
  | [] => .answer addresses valid
  | line :: rest =>
    match scanLine parsers port addresses valid line with
    | none => .denied
    | some (addresses, valid) =>
      if maxResolvedAddresses < addresses.length then .answer addresses false
      else scanLines parsers port addresses valid rest

def validateResolved (addresses : List SocketAddr) : Except Nat (List SocketAddr) :=
  if addresses = [] ∨ maxResolvedAddresses < addresses.length ∨
    addresses.any (fun item => !publicIp item.ip)
  then .error 502
  else .ok addresses

/- What one attempt settles, if it settles the request. -/
def judge (port : Nat) (output : Option (List UInt8)) : Option (Except Nat (List SocketAddr)) :=
  match output.bind decode with
  | none => none
  | some text =>
    match scanLines parsers port [] true (lines text) with
    | .denied => some (.error 403)
    | .answer addresses valid =>
      if valid ∧ addresses ≠ [] then some (validateResolved addresses)
      else none

/- The attempts that are left, one after the other. -/
def resolveFrom (parsers : Parsers) (world : World) (host : List Char) (port : Nat) :
    List Nat → List Event × Except Nat (List SocketAddr)
  | [] => ([], .error 502)
  | attempt :: rest =>
    let met := world.attempts attempt
    if met.late then ([], .error 502)
    else
      let event := .observed host port met.output
      match judge parsers port met.output with
      | some result => ([event], result)
      | none =>
        let others := resolveFrom parsers world host port rest
        (event :: others.1, others.2)

def resolveObserved (world : World) (host : List Char) (port : Nat) :
    List Event × Except Nat (List SocketAddr) :=
  resolveFrom parsers world host port [0, 1, 2]

----
-- Connecting
----

/- The addresses that are left, until one answers. -/
def connectFrom (world : World) : Nat → List SocketAddr → List Event × Bool
  | _, [] => ([], false)
  | index, address :: rest =>
    let met := world.dials index
    if met.late then ([], false)
    else if met.connects then ([.connecting address], true)
    else
      let others := connectFrom world (index + 1) rest
      (.connecting address :: others.1, others.2)

def connectUntil (world : World) (addresses : List SocketAddr) : List Event × Bool :=
  connectFrom world 0 addresses

/- Without a header, the connection is dropped. -/
def handleUntil (hosts : List (List Char)) (world : World)
    (header : Option (List UInt8)) : List Event :=
  match header with
  | none => []
  | some header =>
    match parseRequest parsers header hosts with
    | .error status => [.rejected status]
    | .ok request =>
      let resolved := resolveObserved parsers world request.host request.port
      match resolved.2 with
      | .error status => resolved.1 ++ [.rejected status]
      | .ok addresses =>
        let dialed := connectUntil world addresses
        let last :=
          if dialed.2 then .relayed request.connect request.forward
          else .rejected 502
        resolved.1 ++ (dialed.1 ++ [last])

end VonkForge.Egress
