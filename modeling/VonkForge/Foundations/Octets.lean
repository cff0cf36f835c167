import Mathlib

/-
  Blocks of addresses that share their first bits.

  An address is a list of octets, and a block fixes a number of leading bits. Two blocks that differ
  in a bit both fix have no address in common, and a block that fixes more of the same bits lies
  inside.

  Main declarations:
    * `bit`
    * `Block.contains_iff`
    * `Block.not_contains_of_differs`
    * `Block.contains_of_covers`
-/

----
-- Blocks
----

namespace Octets

/- The bits of an address, the highest first. -/
def bit (octets : List UInt8) (index : Nat) : Bool :=
  (octets.getD (index / 8) 0).toNat.testBit (7 - index % 8)

/- Octets that the network leaves out are zero. -/
structure Block where
  network : List UInt8
  bits : Nat
deriving DecidableEq

namespace Block

def Contains (block : Block) (octets : List UInt8) : Prop :=
  ∀ index < block.bits, bit octets index = bit block.network index

instance (block : Block) (octets : List UInt8) : Decidable (block.Contains octets) :=
  inferInstanceAs (Decidable (∀ index < block.bits, bit octets index = bit block.network index))

/- A bit that both fix, each in its own way. -/
def Differs (left right : Block) : Prop :=
  ∃ index < min left.bits right.bits, bit left.network index ≠ bit right.network index

instance (left right : Block) : Decidable (left.Differs right) :=
  inferInstanceAs (Decidable (∃ index < min left.bits right.bits, bit left.network index ≠
      bit right.network index))

/- The inner block fixes all that the outer one does. -/
def Covers (outer inner : Block) : Prop := outer.bits ≤ inner.bits ∧ outer.Contains inner.network

instance (outer inner : Block) : Decidable (outer.Covers inner) :=
  inferInstanceAs (Decidable (outer.bits ≤ inner.bits ∧ outer.Contains inner.network))

variable {octets : List UInt8}

/- Blocks that differ have no address in common. -/
theorem not_contains_of_differs
    {left right : Block}
    (hDiffers : left.Differs right)
    (hLeft : left.Contains octets) :
    ¬ right.Contains octets := by
  intro hRight
  rcases hDiffers with ⟨index, hIndex, hOther⟩
  rw [Nat.lt_min] at hIndex
  apply hOther
  rw [← hLeft index hIndex.1, hRight index hIndex.2]

/- A block that covers another has its addresses. -/
theorem contains_of_covers
    {outer inner : Block}
    (hCovers : outer.Covers inner)
    (hInner : inner.Contains octets) :
    outer.Contains octets := by
  intro index hIndex
  rw [hInner index (by have := hCovers.1; omega)]
  exact hCovers.2 index hIndex

end Block

end Octets

----
-- Octet by Octet
----

namespace Octets

theorem testBit_octet (octet : UInt8) {index : Nat} (hIndex : 8 ≤ index) :
    octet.toNat.testBit index = false := by
  apply Nat.testBit_lt_two_pow
  have hOctet := octet.toNat_lt
  have hPower : 2 ^ 8 ≤ 2 ^ index := Nat.pow_le_pow_right (by omega) hIndex
  omega

/- The bits of an octet, where they are in the address. -/
theorem bit_eq_testBit (octets : List UInt8) (position : Nat) {index : Nat} (hIndex : index < 8) :
    bit octets (8 * position + (7 - index)) = (octets.getD position 0).toNat.testBit index := by
  have hOctet : (8 * position + (7 - index)) / 8 = position := by omega
  have hBit : 7 - (8 * position + (7 - index)) % 8 = index := by omega
  rw [bit, hOctet, hBit]

namespace Block

/- Whole octets, and the first bits of the one after. -/
theorem contains_iff
    (block : Block)
    (octets : List UInt8) :
    block.Contains octets ↔
      (∀ position < block.bits / 8,
         octets.getD position 0 = block.network.getD position 0) ∧
      (octets.getD (block.bits / 8) 0).toNat >>> (8 - block.bits % 8) =
        (block.network.getD (block.bits / 8) 0).toNat >>>
          (8 - block.bits % 8) := by
  constructor
  · intro hContains
    constructor
    · intro position _
      apply UInt8.toNat_inj.mp
      apply Nat.eq_of_testBit_eq
      intro index
      by_cases hIndex : index < 8
      · rw [← bit_eq_testBit octets position hIndex, ← bit_eq_testBit block.network position hIndex]
        apply hContains
        omega
      · rw [testBit_octet _ (by omega), testBit_octet _ (by omega)]
    · apply Nat.eq_of_testBit_eq
      intro index
      rw [Nat.testBit_shiftRight, Nat.testBit_shiftRight]
      by_cases hIndex : 8 - block.bits % 8 + index < 8
      · rw [← bit_eq_testBit octets _ hIndex, ← bit_eq_testBit block.network _ hIndex]
        apply hContains
        omega
      · rw [testBit_octet _ (by omega), testBit_octet _ (by omega)]
  · rintro ⟨hWhole, hPart⟩ index _
    by_cases hPosition : index / 8 < block.bits / 8
    · rw [bit, bit, hWhole _ hPosition]
    · -- The bit is one of those that the shift has kept.
      have hLast : index / 8 = block.bits / 8 := by omega
      have hKept : 7 - index % 8 = (8 - block.bits % 8) + (block.bits % 8 - 1 - index % 8) := by
        omega
      rw [bit, bit, hLast, hKept, ← Nat.testBit_shiftRight, ← Nat.testBit_shiftRight, hPart]

variable {octets : List UInt8}

/- An octet that a block fixes as a whole. -/
theorem Contains.octet {block : Block} (hContains : block.Contains octets)
    (position : Nat) (hPosition : position < block.bits / 8) :
    octets.getD position 0 = block.network.getD position 0 :=
  (block.contains_iff octets |>.mp hContains).1 position hPosition

/- The octet of which a block fixes the first bits. -/
theorem Contains.part {block : Block} (hContains : block.Contains octets) :
    (octets.getD (block.bits / 8) 0).toNat / 2 ^ (8 - block.bits % 8) =
    (block.network.getD (block.bits / 8) 0).toNat / 2 ^ (8 - block.bits % 8) := by
  rw [← Nat.shiftRight_eq_div_pow, ← Nat.shiftRight_eq_div_pow]
  exact (block.contains_iff octets |>.mp hContains).2

end Block

end Octets
