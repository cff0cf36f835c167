import Mathlib

/-
  The SHA-256 digest of a list of bytes, over natural numbers with explicit reduction modulo `2 ^
  32`.

  The definitions are structurally recursive, and `force` evaluates each word before it is used
  again, so that the digest of a short message can be computed inside a proof.

  Main declarations:
    * `compress`
    * `padding`
    * `digest`
-/

----
-- Words
----

namespace Sha256

def wordModulus : Nat := 4294967296

/- Rotate a 32-bit word to the right. -/
def rotr (n x : Nat) : Nat := (x >>> n ||| x <<< (32 - n)) % wordModulus

/- Evaluate a word once, then continue with its value. -/
def force {α : Type} (x : Nat) (f : Nat → α) : α :=
  match x with
  | 0 => f 0
  | n + 1 => f (n + 1)

/- The bytes of a number, most significant first. -/
def bigEndian (width x : Nat) : List Nat :=
  (List.range width).reverse.map (fun i => x / 256 ^ i % 256)

/- The number a list of bytes spells. -/
def ofBigEndian (bytes : List Nat) : Nat := bytes.foldl (fun acc b => acc * 256 + b) 0

----
-- Compression
----

def roundConstants : List Nat :=
  [0x428a2f98, 0x71374491, 0xb5c0fbcf, 0xe9b5dba5, 0x3956c25b, 0x59f111f1, 0x923f82a4, 0xab1c5ed5,
   0xd807aa98, 0x12835b01, 0x243185be, 0x550c7dc3, 0x72be5d74, 0x80deb1fe, 0x9bdc06a7, 0xc19bf174,
   0xe49b69c1, 0xefbe4786, 0x0fc19dc6, 0x240ca1cc, 0x2de92c6f, 0x4a7484aa, 0x5cb0a9dc, 0x76f988da,
   0x983e5152, 0xa831c66d, 0xb00327c8, 0xbf597fc7, 0xc6e00bf3, 0xd5a79147, 0x06ca6351, 0x14292967,
   0x27b70a85, 0x2e1b2138, 0x4d2c6dfc, 0x53380d13, 0x650a7354, 0x766a0abb, 0x81c2c92e, 0x92722c85,
   0xa2bfe8a1, 0xa81a664b, 0xc24b8b70, 0xc76c51a3, 0xd192e819, 0xd6990624, 0xf40e3585, 0x106aa070,
   0x19a4c116, 0x1e376c08, 0x2748774c, 0x34b0bcb5, 0x391c0cb3, 0x4ed8aa4a, 0x5b9cca4f, 0x682e6ff3,
   0x748f82ee, 0x78a5636f, 0x84c87814, 0x8cc70208, 0x90befffa, 0xa4506ceb, 0xbef9a3f7, 0xc67178f2]

/- The eight working words. -/
structure Words where
  a : Nat
  b : Nat
  c : Nat
  d : Nat
  e : Nat
  f : Nat
  g : Nat
  h : Nat
deriving DecidableEq

def initial : Words :=
  ⟨0x6a09e667, 0xbb67ae85, 0x3c6ef372, 0xa54ff53a, 0x510e527f, 0x9b05688c, 0x1f83d9ab, 0x5be0cd19⟩

/- The next schedule word; `w` holds the newest first. -/
def nextWord (w : List Nat) : Nat :=
  let w2 := w.getD 1 0
  let w7 := w.getD 6 0
  let w15 := w.getD 14 0
  let w16 := w.getD 15 0
  let s0 := rotr 7 w15 ^^^ rotr 18 w15 ^^^ (w15 >>> 3)
  let s1 := rotr 17 w2 ^^^ rotr 19 w2 ^^^ (w2 >>> 10)
  (w16 + s0 + w7 + s1) % wordModulus

def extend : Nat → List Nat → List Nat
  | 0, w => w
  | n + 1, w => force (nextWord w) (fun next => extend n (next :: w))

def round (s : Words) (k w : Nat) : Words :=
  let s1 := rotr 6 s.e ^^^ rotr 11 s.e ^^^ rotr 25 s.e
  let ch := (s.e &&& s.f) ^^^ ((wordModulus - 1 - s.e) &&& s.g)
  let t1 := s.h + s1 + ch + k + w
  let s0 := rotr 2 s.a ^^^ rotr 13 s.a ^^^ rotr 22 s.a
  let maj := (s.a &&& s.b) ^^^ (s.a &&& s.c) ^^^ (s.b &&& s.c)
  force ((t1 + s0 + maj) % wordModulus) fun a => force ((s.d + t1) % wordModulus) fun e =>
    ⟨a, s.a, s.b, s.c, e, s.e, s.f, s.g⟩

def rounds : Words → List Nat → List Nat → Words
  | s, k :: ks, w :: ws =>
    match round s k w with
    | ⟨a, b, c, d, e, f, g, h⟩ => rounds ⟨a, b, c, d, e, f, g, h⟩ ks ws
  | s, _, _ => s

def compress (s : Words) (block : List Nat) : Words :=
  let t := rounds s roundConstants (extend 48 block.reverse).reverse
  ⟨(s.a + t.a) % wordModulus, (s.b + t.b) % wordModulus,
   (s.c + t.c) % wordModulus, (s.d + t.d) % wordModulus,
   (s.e + t.e) % wordModulus, (s.f + t.f) % wordModulus,
   (s.g + t.g) % wordModulus, (s.h + t.h) % wordModulus⟩

----
-- Digest
----

/- Fill the last block and append the length in bits. -/
def padding (message : List Nat) : List Nat :=
  message ++ 128 :: List.replicate ((119 - message.length % 64) % 64) 0 ++
    bigEndian 8 (8 * message.length)

def words : Nat → List Nat → List Nat
  | 0, _ => []
  | n + 1, bytes => ofBigEndian (bytes.take 4) :: words n (bytes.drop 4)

def blocks : Nat → List Nat → List (List Nat)
  | 0, _ => []
  | n + 1, bytes => words 16 (bytes.take 64) :: blocks n (bytes.drop 64)

def digest (message : List Nat) : List Nat :=
  let padded := padding message
  let t := (blocks (padded.length / 64) padded).foldl compress initial
  [t.a, t.b, t.c, t.d, t.e, t.f, t.g, t.h].flatMap (bigEndian 4)

/- The published test vector for the message `abc`. -/
example : digest [97, 98, 99] = [0xba, 0x78, 0x16, 0xbf, 0x8f, 0x01, 0xcf, 0xea,
       0x41, 0x41, 0x40, 0xde, 0x5d, 0xae, 0x22, 0x23,
       0xb0, 0x03, 0x61, 0xa3, 0x96, 0x17, 0x7a, 0x9c,
       0xb4, 0x10, 0xff, 0x61, 0xf2, 0x00, 0x15, 0xad] := by
  decide +kernel

end Sha256
