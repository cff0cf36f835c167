import Mathlib

/-
  Addresses that the build proxy may connect to.

  Sources: `public_ip`, `public_v4`, `public_v6` and `ipv6_prefix` of the build proxy.

  Main declarations:
    * `IpAddr`
    * `SocketAddr`
    * `Parsers`
-/

----
-- Addresses
----

namespace VonkForge.Egress

inductive IpAddr where
  | v4 (a b c d : UInt8)
  | v6 (octets : Vector UInt8 16)
deriving DecidableEq

structure SocketAddr where
  ip : IpAddr
  port : Nat
  scopeId : Nat
deriving DecidableEq

/- How the standard library reads an address. Nothing is assumed of it. -/
structure Parsers where
  ipAddr : List Char → Option IpAddr
  socketAddr : List Char → Option SocketAddr

----
-- Public Addresses
----

def publicV4 (a b c : UInt8) : Bool := !(a == 0
    || a == 10
    || a == 127
    || a >= 224
    || (a == 100 && (64 <= b && b <= 127))
    || (a == 169 && b == 254)
    || (a == 172 && (16 <= b && b <= 31))
    || (a == 192 && b == 168)
    || (a == 192 && b == 0 && c == 0)
    || (a == 192 && b == 0 && c == 2)
    || (a == 192 && b == 88 && c == 99)
    || (a == 198 && (b == 18 || b == 19))
    || (a == 198 && b == 51 && c == 100)
    || (a == 203 && b == 0 && c == 113))

/- The first `bits` bits are those of the network. -/
def ipv6Prefix (address : Vector UInt8 16) (network : List UInt8) (bits : Nat) : Bool :=
  let fullBytes := bits / 8
  let remainingBits := bits % 8
  (address.toList.zipIdx.take fullBytes).all (fun octet => octet.1 == network.getD octet.2 0) &&
    (remainingBits == 0 || (address.toList.getD fullBytes 0).toNat >>> (8 - remainingBits) ==
      (network.getD fullBytes 0).toNat >>> (8 - remainingBits))

variable (octets : Vector UInt8 16)

/- `Ipv6Addr::to_ipv4_mapped`. -/
def toIpv4Mapped : Option (UInt8 × UInt8 × UInt8 × UInt8) :=
  if octets.toList.take 12 = [0, 0, 0, 0, 0, 0, 0, 0, 0, 0, 0xff, 0xff]
  then some (octets[12], octets[13], octets[14], octets[15])
  else none

/- `Ipv6Addr::segments`, the first of them. -/
def firstSegment : Nat := octets[0].toNat * 256 + octets[1].toNat

def publicV6 : Bool :=
  match toIpv4Mapped octets with
  | some (a, b, c, _) => publicV4 a b c
  | none =>
    firstSegment octets &&& 0xe000 == 0x2000 && !ipv6Prefix octets [0x00, 0x64, 0xff, 0x9b] 96 &&
      !ipv6Prefix octets [0x00, 0x64, 0xff, 0x9b, 0x00, 0x01] 48 &&
      !ipv6Prefix octets [0x01, 0x00] 64 && !ipv6Prefix octets [0x20, 0x01] 23 &&
      !ipv6Prefix octets [0x20, 0x01, 0x0d, 0xb8] 32 && !ipv6Prefix octets [0x20, 0x02] 16 &&
      !ipv6Prefix octets [0x3f, 0xfe] 16 && !ipv6Prefix octets [0x3f, 0xff] 20

def publicIp : IpAddr → Bool
  | .v4 a b c _ => publicV4 a b c
  | .v6 octets => publicV6 octets

end VonkForge.Egress
