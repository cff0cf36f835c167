import VonkForge.Egress.Address
import VonkForge.Foundations.Octets

/-
  An address that passes is in no special block.

  The blocks are those set aside for special use, by kind. Addresses of version 6 are taken from the
  one block that is handed out, so that most of the kinds are out of reach, and the checks are for
  what lies within it.

  Main declarations:
    * `Kind`
    * `ipv6Prefix_eq_true_iff`
    * `publicV4_not_special`
    * `publicIp_not_special`
-/

----
-- Special Blocks
----

namespace VonkForge.Egress

open Octets

inductive Kind where
  | loopback
  | privateUse
  | linkLocal
  | shared
  | documentation
  | benchmark
  | multicast
  | reserved
  | unspecified
  | transition
deriving DecidableEq

def blocks4 : Kind → List Block
  | .loopback => [⟨[127], 8⟩]
  | .privateUse => [⟨[10], 8⟩, ⟨[172, 16], 12⟩, ⟨[192, 168], 16⟩]
  | .linkLocal => [⟨[169, 254], 16⟩]
  | .shared => [⟨[100, 64], 10⟩]
  | .documentation => [⟨[192, 0, 2], 24⟩, ⟨[198, 51, 100], 24⟩, ⟨[203, 0, 113], 24⟩]
  | .benchmark => [⟨[198, 18], 15⟩]
  | .multicast => [⟨[224], 4⟩]
  | .reserved => [⟨[240], 4⟩, ⟨[192, 0, 0], 24⟩]
  | .unspecified => [⟨[0], 8⟩]
  | .transition => [⟨[192, 88, 99], 24⟩]

/- Mapped addresses, within `::/8`, are a case of their own. -/
def blocks6 : Kind → List Block
  | .loopback => [⟨[0, 0, 0, 0, 0, 0, 0, 0, 0, 0, 0, 0, 0, 0, 0, 1], 128⟩]
  | .privateUse => [⟨[0xfc], 7⟩]
  | .linkLocal => [⟨[0xfe, 0x80], 10⟩]
  | .shared => []
  | .documentation => [⟨[0x20, 0x01, 0x0d, 0xb8], 32⟩, ⟨[0x3f, 0xff], 20⟩]
  | .benchmark => [⟨[0x20, 0x01, 0x00, 0x02], 48⟩]
  | .multicast => [⟨[0xff], 8⟩]
  | .reserved =>
    [⟨[0x01], 8⟩, ⟨[0x02], 7⟩, ⟨[0x04], 6⟩, ⟨[0x08], 5⟩, ⟨[0x10], 4⟩, ⟨[0x20, 0x01], 23⟩,
      ⟨[0x3f, 0xfe], 16⟩, ⟨[0x40], 3⟩, ⟨[0x60], 3⟩, ⟨[0x80], 3⟩, ⟨[0xa0], 3⟩, ⟨[0xc0], 3⟩,
      ⟨[0xe0], 4⟩, ⟨[0xf0], 5⟩, ⟨[0xf8], 6⟩, ⟨[0xfe], 9⟩, ⟨[0xfe, 0xc0], 10⟩]
  | .unspecified => [⟨[], 128⟩]
  | .transition =>
    [⟨[], 96⟩, ⟨[0x00, 0x64, 0xff, 0x9b], 96⟩, ⟨[0x00, 0x64, 0xff, 0x9b, 0x00, 0x01], 48⟩,
      ⟨[0x20, 0x01, 0x00, 0x00], 32⟩, ⟨[0x20, 0x02], 16⟩]

/- Addresses of version 4 in the form of version 6. -/
def mappedBlock : Block where
  network := [0, 0, 0, 0, 0, 0, 0, 0, 0, 0, 0xff, 0xff]
  bits := 96

def Special4 (octets : List UInt8) : Prop := ∃ kind, ∃ block ∈ blocks4 kind, block.Contains octets

def Special6 (octets : List UInt8) : Prop := ∃ kind, ∃ block ∈ blocks6 kind, block.Contains octets

def Special : IpAddr → Prop
  | .v4 a b c d => Special4 [a, b, c, d]
  | .v6 octets =>
    Special6 octets.toList ∨ (mappedBlock.Contains octets.toList ∧ Special4 (octets.toList.drop 12))

----
-- Version 4
----

open Octets

theorem between_of_toNat {octet low high : UInt8} (hLow : low.toNat ≤ octet.toNat)
    (hHigh : octet.toNat ≤ high.toNat) : low ≤ octet ∧ octet ≤ high := by
  rw [UInt8.le_iff_toNat_le, UInt8.le_iff_toNat_le]
  exact ⟨hLow, hHigh⟩

theorem publicV4_of_high {a : UInt8} (hHigh : 14 ≤ a.toNat / 16) (b c : UInt8) :
    publicV4 a b c = false := by
  have hBetween : 224 ≤ a ∧ a ≤ 255 := by
    apply between_of_toNat
    · change 224 ≤ a.toNat
      omega
    · have hOctet := a.toNat_lt
      change a.toNat ≤ 255
      omega
  simp [publicV4, hBetween.1]

/- The checks are for the blocks, one by one. -/
theorem publicV4_of_contains {a b c d : UInt8} {kind : Kind} {block : Block}
    (hBlock : block ∈ blocks4 kind) (hContains : block.Contains [a, b, c, d]) :
    publicV4 a b c = false := by
  -- The octets that the block has whole.
  have hFirst (hBits : 0 < block.bits / 8) : a = block.network.getD 0 0 := hContains.octet 0 hBits
  have hSecond (hBits : 1 < block.bits / 8) : b = block.network.getD 1 0 := hContains.octet 1 hBits
  have hThird (hBits : 2 < block.bits / 8) : c = block.network.getD 2 0 := hContains.octet 2 hBits
  cases kind with
  | loopback | unspecified =>
    obtain rfl := List.mem_singleton.mp hBlock
    rw [hFirst (by decide)]
    rfl
  | privateUse =>
    simp only [blocks4, List.mem_cons, List.not_mem_nil, or_false] at hBlock
    rcases hBlock with rfl | rfl | rfl
    · rw [hFirst (by decide)]
      rfl
    · have hPart : b.toNat / 16 = 1 := hContains.part
      have hBetween : 16 ≤ b ∧ b ≤ 31 := by
        apply between_of_toNat
        · change 16 ≤ b.toNat
          omega
        · change b.toNat ≤ 31
          omega
      simp [publicV4, hFirst (by decide), hBetween]
    · rw [hFirst (by decide), hSecond (by decide)]
      rfl
  | linkLocal =>
    obtain rfl := List.mem_singleton.mp hBlock
    rw [hFirst (by decide), hSecond (by decide)]
    rfl
  | shared =>
    obtain rfl := List.mem_singleton.mp hBlock
    have hPart : b.toNat / 64 = 1 := hContains.part
    have hBetween : 64 ≤ b ∧ b ≤ 127 := by
      apply between_of_toNat
      · change 64 ≤ b.toNat
        omega
      · change b.toNat ≤ 127
        omega
    simp [publicV4, hFirst (by decide), hBetween]
  | benchmark =>
    obtain rfl := List.mem_singleton.mp hBlock
    have hPart : b.toNat / 2 = 9 := hContains.part
    have hEither : b = 18 ∨ b = 19 := by
      simp only [← UInt8.toNat_inj]
      change b.toNat = 18 ∨ b.toNat = 19
      omega
    rw [hFirst (by decide)]
    rcases hEither with rfl | rfl <;> rfl
  | multicast =>
    obtain rfl := List.mem_singleton.mp hBlock
    have hPart : a.toNat / 16 = 14 := hContains.part
    exact publicV4_of_high (by omega) b c
  | reserved =>
    simp only [blocks4, List.mem_cons, List.not_mem_nil, or_false] at hBlock
    rcases hBlock with rfl | rfl
    · have hPart : a.toNat / 16 = 15 := hContains.part
      exact publicV4_of_high (by omega) b c
    · rw [hFirst (by decide), hSecond (by decide), hThird (by decide)]
      rfl
  | documentation | transition =>
    simp only [blocks4, List.mem_cons, List.not_mem_nil, or_false] at hBlock
    rcases hBlock with rfl | rfl | rfl
    all_goals
      rw [hFirst (by decide), hSecond (by decide), hThird (by decide)]
      rfl

/- A public address of version 4 is in no special block. -/
theorem publicV4_not_special
    {a b c d : UInt8}
    (hPublic : publicV4 a b c) :
    ¬ Special4 [a, b, c, d] := by
  rintro ⟨_, _, hBlock, hContains⟩
  rw [publicV4_of_contains hBlock hContains] at hPublic
  cases hPublic

----
-- Version 6
----

open Octets

theorem shiftRight_octet (octet : UInt8) : octet.toNat >>> 8 = 0 := by
  rw [Nat.shiftRight_eq_div_pow]
  exact Nat.div_eq_of_lt octet.toNat_lt

/- The loop over the octets is a test of a block. -/
theorem ipv6Prefix_eq_true_iff
    (address : Vector UInt8 16)
    (network : List UInt8)
    (bits : Nat)
    (hBits : bits ≤ 128) :
    ipv6Prefix address network bits ↔
      Block.Contains ⟨network, bits⟩ address.toList := by
  have hWhole : (address.toList.zipIdx.take (bits / 8)).all
      (fun octet => octet.1 == network.getD octet.2 0) = true ↔
      ∀ position < bits / 8, address.toList.getD position 0 = network.getD position 0 := by
    rw [List.all_eq_true]
    constructor
    · intro hAll position hPosition
      have hLength : position < address.toList.length := by
        rw [Vector.length_toList]
        omega
      have hMem :
          (address.toList.getD position 0, position) ∈ address.toList.zipIdx.take (bits / 8) := by
        apply List.mem_iff_getElem?.mpr
        refine ⟨position, ?_⟩
        rw [List.getElem?_take, if_pos hPosition, List.getElem?_zipIdx,
          List.getElem?_eq_getElem hLength, List.getD_eq_getElem _ _ hLength]
        simp
      exact beq_iff_eq.mp (hAll _ hMem)
    · rintro hAll ⟨octet, position⟩ hMem
      rcases List.mem_iff_getElem?.mp hMem with ⟨index, hIndex⟩
      rw [List.getElem?_take] at hIndex
      split at hIndex
      · rename_i hBelow
        rw [List.getElem?_zipIdx] at hIndex
        rcases Option.map_eq_some_iff.mp hIndex with ⟨_, hFound, hSame⟩
        rw [Nat.zero_add] at hSame
        cases hSame
        have hEqual := hAll _ hBelow
        rw [List.getD_eq_getElem?_getD, hFound, Option.getD_some] at hEqual
        exact beq_iff_eq.mpr hEqual
      · cases hIndex
  have hPart : (bits % 8 == 0 || (address.toList.getD (bits / 8) 0).toNat >>> (8 - bits % 8) ==
        (network.getD (bits / 8) 0).toNat >>> (8 - bits % 8)) ↔
      (address.toList.getD (bits / 8) 0).toNat >>> (8 - bits % 8) =
      (network.getD (bits / 8) 0).toNat >>> (8 - bits % 8) := by
    by_cases hNone : bits % 8 = 0
    · -- Nothing of an octet is left after eight bits.
      simp [hNone, shiftRight_octet]
    · simp [hNone]
  rw [ipv6Prefix, Block.contains_iff, Bool.and_eq_true, hWhole, hPart]

/- The block of version 6 that is handed out. -/
def globalBlock : Block where
  network := [0x20]
  bits := 3

/- The blocks within it that the checks leave out. -/
def checkedBlocks : List Block :=
  [⟨[0x00, 0x64, 0xff, 0x9b], 96⟩, ⟨[0x00, 0x64, 0xff, 0x9b, 0x00, 0x01], 48⟩,
    ⟨[0x01, 0x00], 64⟩, ⟨[0x20, 0x01], 23⟩, ⟨[0x20, 0x01, 0x0d, 0xb8], 32⟩,
    ⟨[0x20, 0x02], 16⟩, ⟨[0x3f, 0xfe], 16⟩, ⟨[0x3f, 0xff], 20⟩]

variable {octets : Vector UInt8 16}

/- The mask keeps the first three bits. -/
theorem global_of_mask
    (hMask : firstSegment octets &&& 0xe000 = 0x2000) : globalBlock.Contains octets.toList := by
  have hFirst := octets[0].toNat_lt
  have hSecond := octets[1].toNat_lt
  have hBit (index : Nat) : ((firstSegment octets).testBit index && (0xe000 : Nat).testBit index) =
    (0x2000 : Nat).testBit index := by rw [← Nat.testBit_and, hMask]
  have hHigh := hBit 15
  have hMiddle := hBit 14
  have hLow := hBit 13
  simp only [firstSegment, Nat.testBit_eq_decide_div_mod_eq] at hHigh hMiddle hLow
  norm_num at hHigh hMiddle hLow
  rw [Block.contains_iff]
  constructor
  · intro _ hPosition
    cases hPosition
  · rw [Nat.shiftRight_eq_div_pow, Nat.shiftRight_eq_div_pow]
    have hOctet : octets.toList.getD (globalBlock.bits / 8) 0 = octets[0] := by simp [globalBlock]
    rw [hOctet]
    change octets[0].toNat / 32 = 1
    omega

theorem mapped_iff (octets : Vector UInt8 16) :
    mappedBlock.Contains octets.toList ↔ octets.toList.take 12 = mappedBlock.network := by
  constructor
  · intro hContains
    apply List.ext_getElem
    · simp [mappedBlock]
    · intro index _ hNetwork
      have hIndex : index < 12 := hNetwork
      have hOctet := hContains.octet index (by simpa [mappedBlock] using hIndex)
      rw [List.getD_eq_getElem _ _ hNetwork, List.getD_eq_getElem _ _ (by simp; omega)] at hOctet
      rw [List.getElem_take]
      exact hOctet
  · intro hTaken index hIndex
    have hPosition : index / 8 < 12 := by
      change index < 96 at hIndex
      omega
    rw [bit, bit, ← hTaken]
    congr 2
    rw [List.getD_eq_getElem?_getD,
      List.getD_eq_getElem?_getD, List.getElem?_take, if_pos hPosition]

/- Mapped addresses are in no other special block. -/
theorem mapped_differs (kind : Kind) : ∀ block ∈ blocks6 kind, mappedBlock.Differs block := by
  cases kind with
  | _ => decide +kernel

/- Each kind is out of reach, or left out by a check. -/
theorem differs_or_covered (kind : Kind) : ∀ block ∈ blocks6 kind, globalBlock.Differs block ∨
    ∃ checked ∈ checkedBlocks, checked.Covers block := by
  cases kind with
  | _ => decide +kernel

theorem not_special6_of_global {octets : List UInt8} (hGlobal : globalBlock.Contains octets)
    (hChecked : ∀ block ∈ checkedBlocks, ¬ block.Contains octets) : ¬ Special6 octets := by
  rintro ⟨kind, block, hBlock, hContains⟩
  rcases differs_or_covered kind block hBlock with hDiffers | ⟨checked, hMem, hCovers⟩
  · exact Block.not_contains_of_differs hDiffers hGlobal hContains
  · exact hChecked checked hMem (Block.contains_of_covers hCovers hContains)

theorem checked_bits_le : ∀ block ∈ checkedBlocks, block.bits ≤ 128 := by decide

theorem publicV6_not_special (hPublic : publicV6 octets) :
    ¬ Special (.v6 octets) := by
  unfold publicV6 toIpv4Mapped at hPublic
  by_cases hMapped : mappedBlock.Contains octets.toList
  · have hTaken := (mapped_iff octets).mp hMapped
    simp only [mappedBlock] at hTaken
    rw [if_pos hTaken] at hPublic
    have hRest : octets.toList.drop 12 = [octets[12], octets[13], octets[14], octets[15]] := by
      apply List.ext_getElem
      · simp
      · intro index _ hListed
        simp only [List.getElem_drop, Vector.getElem_toList]
        have hIndex : index < 4 := hListed
        interval_cases index <;> rfl
    rintro (⟨kind, block, hBlock, hContains⟩ | ⟨_, hSpecial⟩)
    · exact Block.not_contains_of_differs (mapped_differs kind block hBlock) hMapped hContains
    · rw [hRest] at hSpecial
      exact publicV4_not_special hPublic hSpecial
  · have hTaken : ¬ octets.toList.take 12 = [0, 0, 0, 0, 0, 0, 0, 0, 0, 0, 0xff, 0xff] :=
      fun hTaken => hMapped ((mapped_iff octets).mpr hTaken)
    rw [if_neg hTaken] at hPublic
    simp only [Bool.and_eq_true, Bool.not_eq_true', beq_iff_eq, and_assoc] at hPublic
    rcases hPublic with ⟨hMask, hPrefixes⟩
    have hChecked : ∀ block ∈ checkedBlocks, ipv6Prefix octets block.network block.bits = false :=
      by simpa [checkedBlocks] using hPrefixes
    rintro (hSpecial | ⟨hOther, _⟩)
    · refine not_special6_of_global (global_of_mask hMask) ?_ hSpecial
      intro block hBlock hContains
      have hTrue := (ipv6Prefix_eq_true_iff octets block.network block.bits
          (checked_bits_le block hBlock)).mpr hContains
      rw [hChecked block hBlock] at hTrue
      cases hTrue
    · exact hMapped hOther

/- What the checks call public is in no special block. -/
theorem publicIp_not_special
    {address : IpAddr}
    (hPublic : publicIp address) :
    ¬ Special address := by
  cases address with
  | v4 => exact publicV4_not_special hPublic
  | v6 => exact publicV6_not_special hPublic

end VonkForge.Egress
